import ChangeCapture.Column.Inference
import Mathlib.Data.List.Infix

/-!
# The marks of dates and times

What a reader leaves is an end of its text, so the hyphens and colons that it reads
stand in the text.  Every text that is read as a date or a time has the marks of its
kind (`TimeKind.marks_subset`).  So a text with neither a hyphen nor a colon need not be
read to tell its kind (`ColumnKind.ofText_exact`).
-/

namespace ChangeCapture

namespace Calendar

/-! ## Ends of texts -/

/-- What a step leaves is an end of what it reads from. -/
def LeavesEnd {α : Type} (step : Step α) : Prop :=
  ∀ ⦃cs x rest⦄, step cs = some (x, rest) → rest <:+ cs

theorem takeDigits_suffix (n : Nat) (cs : List Char) : (takeDigits n cs).2 <:+ cs := by
  induction n generalizing cs with
  | zero => exact List.suffix_refl cs
  | succ n ih =>
    cases cs with
    | nil => exact List.suffix_refl []
    | cons c rest =>
      simp only [takeDigits]
      split
      · exact (ih rest).trans (List.suffix_cons c rest)
      · exact List.suffix_refl _

theorem leavesEnd_number (least most : Nat) : LeavesEnd (number least most) := by
  intro cs n rest h
  simp only [number] at h
  split at h
  · cases h
  · obtain ⟨-, rfl⟩ := Prod.mk.inj (Option.some.inj h)
    exact takeDigits_suffix most cs

theorem leavesEnd_anyNumber : LeavesEnd anyNumber := by
  intro cs n rest h
  simp only [anyNumber, List.span_eq_takeWhile_dropWhile] at h
  split at h
  · cases h
  · obtain ⟨-, rfl⟩ := Prod.mk.inj (Option.some.inj h)
    exact List.dropWhile_suffix Char.isDigit

theorem LeavesEnd.bounded {read : Step Nat} (h : LeavesEnd read) (low high : Nat) :
    LeavesEnd (bounded low high read) := by
  intro cs n rest reads
  unfold Calendar.bounded at reads
  split at reads
  · rename_i inner
    split at reads
    · obtain ⟨-, rfl⟩ := Prod.mk.inj (Option.some.inj reads)
      exact h inner
    · cases reads
  · cases reads

theorem trimStart_suffix (cs : List Char) : Unicode.trimStart cs <:+ cs :=
  List.dropWhile_suffix Unicode.isBlank

theorem leavesEnd_lenientPair (low high : Nat) : LeavesEnd (lenientPair low high) :=
  fun cs _ _ h => ((leavesEnd_number 1 2).bounded low high h).trans (trimStart_suffix cs)

theorem leavesEnd_lenientYear : LeavesEnd lenientYear := by
  intro cs year rest h
  refine List.IsSuffix.trans ?_ (trimStart_suffix cs)
  unfold lenientYear at h
  split at h
  · rename_i signed trimmed
    obtain ⟨⟨n, rest'⟩, reads, same⟩ := Option.map_eq_some_iff.1 h
    obtain ⟨-, rfl⟩ := Prod.mk.inj same
    rw [trimmed]
    exact (leavesEnd_anyNumber reads).trans (List.suffix_cons _ _)
  · rename_i signed trimmed
    obtain ⟨⟨n, rest'⟩, reads, same⟩ := Option.map_eq_some_iff.1 h
    obtain ⟨-, rfl⟩ := Prod.mk.inj same
    rw [trimmed]
    exact (leavesEnd_anyNumber reads).trans (List.suffix_cons _ _)
  · obtain ⟨⟨n, rest'⟩, reads, same⟩ := Option.map_eq_some_iff.1 h
    obtain ⟨-, rfl⟩ := Prod.mk.inj same
    exact leavesEnd_number 1 4 reads

/-! ## Marks that are read -/

theorem eq_cons_of_literal {c : Char} {cs rest : List Char} (h : literal c cs = some rest) :
    cs = c :: rest := by
  cases cs with
  | nil => cases h
  | cons d more =>
    simp only [literal] at h
    split at h
    · rename_i same
      rw [same, Option.some.inj h]
    · cases h

/-- A character that is read from an end of a text stands in the text. -/
theorem mem_of_literal {c : Char} {text cs rest : List Char} (ends : cs <:+ text)
    (h : literal c cs = some rest) : c ∈ text ∧ rest <:+ text := by
  rw [eq_cons_of_literal h] at ends
  exact ⟨ends.subset List.mem_cons_self, (List.suffix_cons c rest).trans ends⟩

theorem separator_suffix {cs rest : List Char} (h : separator cs = some rest) : rest <:+ cs := by
  cases cs with
  | nil => cases h
  | cons c more =>
    simp only [separator] at h
    split at h
    · rw [← Option.some.inj h]
      exact List.suffix_cons c more
    · cases h

/-- A date has a hyphen. -/
theorem hyphen_of_lenientDate {cs rest : List Char} {d : Date}
    (h : lenientDate cs = some (d, rest)) : '-' ∈ cs ∧ rest <:+ cs := by
  simp only [lenientDate, Option.bind_eq_bind, Option.bind_eq_some_iff] at h
  obtain ⟨⟨year, afterYear⟩, readYear, beforeMonth, first, ⟨month, afterMonth⟩, readMonth,
    beforeDay, second, ⟨day, afterDay⟩, readDay, d', -, same⟩ := h
  obtain ⟨-, rfl⟩ := Prod.mk.inj (Option.some.inj same)
  obtain ⟨hyphen, ends⟩ := mem_of_literal (leavesEnd_lenientYear readYear) first
  have ends := (leavesEnd_lenientPair 1 12 readMonth).trans ends
  obtain ⟨-, ends⟩ := mem_of_literal ends second
  exact ⟨hyphen, (leavesEnd_lenientPair 1 31 readDay).trans ends⟩

/-- A time of day has a colon. -/
theorem colon_of_lenientTime {cs rest : List Char} {time : Nat × Nat × Nat}
    (h : lenientTime cs = some (time, rest)) : ':' ∈ cs := by
  simp only [lenientTime, Option.bind_eq_bind, Option.bind_eq_some_iff] at h
  obtain ⟨⟨hours, afterHours⟩, readHours, beforeMinutes, first, -⟩ := h
  exact (mem_of_literal (leavesEnd_lenientPair 0 23 readHours) first).1

/-! ## Whole texts -/

/-- A step that reads the whole text reads something. -/
theorem exists_of_readsAll {α : Type} {step : Step α} {cs : List Char} (h : readsAll step cs) :
    ∃ x rest, step cs = some (x, rest) := by
  unfold readsAll at h
  split at h
  · exact ⟨_, _, ‹_›⟩
  · cases h

theorem marks_of_isRfc3339 {cs : List Char} (h : isRfc3339 cs) : '-' ∈ cs ∧ ':' ∈ cs := by
  simp only [isRfc3339, Option.bind_eq_bind, Option.isSome_iff_exists,
    Option.bind_eq_some_iff] at h
  obtain ⟨-, ⟨year, afterYear⟩, readYear, beforeMonth, first, ⟨month, afterMonth⟩, readMonth,
    beforeDay, second, ⟨day, afterDay⟩, readDay, beforeHours, separates, ⟨hours, afterHours⟩,
    readHours, beforeMinutes, third, -⟩ := h
  obtain ⟨hyphen, ends⟩ := mem_of_literal (leavesEnd_number 4 4 readYear) first
  obtain ⟨-, ends⟩ := mem_of_literal ((leavesEnd_number 2 2 readMonth).trans ends) second
  have ends := (separator_suffix separates).trans ((leavesEnd_number 2 2 readDay).trans ends)
  have ends := ((leavesEnd_number 2 2).bounded 0 23 readHours).trans ends
  exact ⟨hyphen, (mem_of_literal ends third).1⟩

theorem marks_of_isLocalTimestamp {cs : List Char} (h : isLocalTimestamp cs) :
    '-' ∈ cs ∧ ':' ∈ cs := by
  rcases Bool.or_eq_true_iff.1 h with joined | joined
  · obtain ⟨time, rest, reads⟩ := exists_of_readsAll joined
    simp only [joinedByT, Option.bind_eq_bind, Option.bind_eq_some_iff] at reads
    obtain ⟨⟨d, afterDate⟩, readDate, beforeTime, letter, readTime⟩ := reads
    obtain ⟨hyphen, ends⟩ := hyphen_of_lenientDate readDate
    obtain ⟨-, ends⟩ := mem_of_literal ends letter
    exact ⟨hyphen, ends.subset (colon_of_lenientTime readTime)⟩
  · obtain ⟨time, rest, reads⟩ := exists_of_readsAll joined
    simp only [joinedByBlank, Option.bind_eq_bind, Option.bind_eq_some_iff] at reads
    obtain ⟨⟨d, afterDate⟩, readDate, readTime⟩ := reads
    obtain ⟨hyphen, ends⟩ := hyphen_of_lenientDate readDate
    have ends := (trimStart_suffix afterDate).trans ends
    exact ⟨hyphen, ends.subset (colon_of_lenientTime readTime)⟩

theorem hyphen_of_isDate {cs : List Char} (h : isDate cs) : '-' ∈ cs := by
  obtain ⟨d, rest, reads⟩ := exists_of_readsAll h
  exact (hyphen_of_lenientDate reads).1

theorem colon_of_isTime {cs : List Char} (h : isTime cs) : ':' ∈ cs := by
  obtain ⟨time, rest, reads⟩ := exists_of_readsAll h
  exact colon_of_lenientTime reads

end Calendar

open Calendar

/-! ## Kinds -/

/-- The marks that every text of a kind has. -/
def TimeKind.marks : TimeKind → List Char
  | .date => ['-']
  | .time => [':']
  | .timestampTz => ['-', ':']
  | .timestampNtz => ['-', ':']

/-- A text that is read as a date or a time has the marks of its kind. -/
theorem TimeKind.marks_subset {s : String} {kind : TimeKind} (h : ofText? s = some kind) :
    kind.marks ⊆ s.toList := by
  simp only [ofText?] at h
  split at h
  · obtain rfl := Option.some.inj h
    simpa [marks] using marks_of_isRfc3339 ‹_›
  · split at h
    · obtain rfl := Option.some.inj h
      simpa [marks] using marks_of_isLocalTimestamp ‹_›
    · split at h
      · obtain rfl := Option.some.inj h
        simpa [marks] using hyphen_of_isDate ‹_›
      · split at h
        · obtain rfl := Option.some.inj h
          simpa [marks] using colon_of_isTime ‹_›
        · cases h

theorem TimeKind.ofText?_of_unmarked {s : String} (colon : ':' ∉ s.toList)
    (hyphen : '-' ∉ s.toList) : ofText? s = none := by
  cases read : ofText? s with
  | none => rfl
  | some kind =>
    have marked := marks_subset read
    cases kind <;> simp_all [marks]

namespace ColumnKind

/-- The kind of a text that is read as a date or a time in any case. -/
def ofReadText (s : String) : ColumnKind :=
  match TimeKind.ofText? s with
  | some kind => .extendedTime kind
  | none => if Json.isDocument s then .struct else .string

/-- A text without a colon and without a hyphen is no date and no time, since a text of such a
kind has the marks of the kind.  So the kind of a text is the one that reading it gives, whatever
characters it has. -/
theorem ofText_exact :
    (∀ s, ':' ∉ s.toList → '-' ∉ s.toList → TimeKind.ofText? s = none) ∧
      (∀ s kind, TimeKind.ofText? s = some kind → kind.marks ⊆ s.toList) ∧
      ∀ s, ofText s = ofReadText s := by
  refine ⟨fun _ => TimeKind.ofText?_of_unmarked, fun _ _ => TimeKind.marks_subset, fun s => ?_⟩
  unfold ofText ofReadText
  by_cases marked : s.toList.any (fun c => c == ':' || c == '-')
  · rewrite [if_pos marked]
    rfl
  · simp only [List.any_eq_true, Bool.or_eq_true, beq_iff_eq, not_exists, not_and, not_or] at marked
    have colon : ':' ∉ s.toList := fun mem => (marked ':' mem).1 rfl
    have hyphen : '-' ∉ s.toList := fun mem => (marked '-' mem).2 rfl
    rw [TimeKind.ofText?_of_unmarked colon hyphen, ite_self]

/-- A date with minus signs in place of hyphens. -/
def sampleMinus : String := "2023\u221203\u221213"

/-- A timestamp with a sign, blanks before its numbers and a leap second. -/
def sampleLoose : String := " +2023-3- 13\u00a019: 5:60.5"

theorem ofText_exact_samples :
    (':' ∉ sampleMinus.toList ∧ '-' ∉ sampleMinus.toList ∧
        TimeKind.ofText? sampleMinus = none ∧ ofText sampleMinus = ofReadText sampleMinus) ∧
      TimeKind.ofText? sampleLoose = some .timestampNtz ∧
        TimeKind.marks .timestampNtz ⊆ sampleLoose.toList ∧
        ofText sampleLoose = ofReadText sampleLoose := by
  have colon : ':' ∉ sampleMinus.toList := by decide
  have hyphen : '-' ∉ sampleMinus.toList := by decide
  have loose : TimeKind.ofText? sampleLoose = some .timestampNtz := by decide +kernel
  obtain ⟨unmarked, marked, same⟩ := ofText_exact
  exact ⟨⟨colon, hyphen, unmarked _ colon hyphen, same _⟩, loose, marked _ _ loose, same _⟩

end ColumnKind

end ChangeCapture
