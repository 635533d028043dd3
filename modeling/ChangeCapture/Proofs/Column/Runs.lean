import ChangeCapture.Proofs.Column.Name
import Mathlib.Data.List.SplitBy

/-!
# Runs of blanks

A text is cut into its longest runs of blanks and of other characters
(`ColumnName.runs`).  A name in normal form is what the lower-case form of a name comes
to when each run of blanks is written `__` and a digit in front is guarded
(`ColumnName.normalize_eq`).  So the length of a run and the blanks in it make no
difference.
-/

namespace ChangeCapture.ColumnName

open Unicode (isBlank lowercase)

/-! ## Runs -/

/-- Whether two characters belong to one run. -/
def alike (c d : Char) : Bool := isBlank c == isBlank d

/-- The longest runs of a text, of blanks and of other characters in turn. -/
def runs (cs : List Char) : List (List Char) := cs.splitBy alike

/-- How a run stands in a name. -/
def writeRun (run : List Char) : List Char := if run.all isBlank then ['_', '_'] else run

/-- The text with `__` in place of each run of blanks. -/
def blanksReplaced (cs : List Char) : List Char := (runs cs).flatMap writeRun

/-- The characters of a run are blanks, or none of them is. -/
theorem blank_or_full {run : List Char} (chain : run.IsChain fun c d => alike c d) :
    (∀ c ∈ run, isBlank c = true) ∨ ∀ c ∈ run, isBlank c = false := by
  induction run with
  | nil => exact .inl nofun
  | cons c rest ih =>
    cases rest with
    | nil =>
      simp only [List.forall_mem_singleton]
      cases isBlank c <;> simp
    | cons d rest =>
      obtain ⟨same, chain⟩ := List.isChain_cons_cons.1 chain
      have same : isBlank c = isBlank d := eq_of_beq same
      refine (ih chain).imp (fun blank => ?_) (fun full => ?_)
      · exact List.forall_mem_cons.2 ⟨same.trans (blank d List.mem_cons_self), blank⟩
      · exact List.forall_mem_cons.2 ⟨same.trans (full d List.mem_cons_self), full⟩

/-! ## The scan run by run -/

/-- The blanks after the first one of a run are skipped. -/
theorem joinBlanks_skip {run : List Char} (blank : ∀ c ∈ run, isBlank c = true)
    (rest : List Char) : joinBlanks true (run ++ rest) = joinBlanks true rest := by
  induction run with
  | nil => rfl
  | cons c more ih =>
    rw [List.cons_append, joinBlanks, blank c List.mem_cons_self, if_pos rfl, if_pos rfl,
      ih fun c mem => blank c (List.mem_cons_of_mem _ mem)]

/-- Where a run has ended it makes no difference that there was one. -/
theorem joinBlanks_of_ended {cs : List Char} (ended : ∀ c ∈ cs.head?, isBlank c = false) :
    joinBlanks true cs = joinBlanks false cs := by
  cases cs with
  | nil => rfl
  | cons c rest => rw [joinBlanks, joinBlanks, ended c rfl, if_neg Bool.false_ne_true]; rfl

theorem joinBlanks_append_of_blank {run rest : List Char} (there : run ≠ [])
    (blank : ∀ c ∈ run, isBlank c = true) (ended : ∀ c ∈ rest.head?, isBlank c = false) :
    joinBlanks false (run ++ rest) = '_' :: '_' :: joinBlanks false rest := by
  cases run with
  | nil => exact absurd rfl there
  | cons c more =>
    obtain ⟨first, more_blank⟩ := List.forall_mem_cons.1 blank
    rw [List.cons_append, joinBlanks, first, if_pos rfl, if_neg Bool.false_ne_true,
      joinBlanks_skip more_blank, joinBlanks_of_ended ended]

/-- The scan writes one run after the other. -/
theorem joinBlanks_flatten {rs : List (List Char)} (filled : [] ∉ rs)
    (uniform : ∀ run ∈ rs, run.IsChain fun c d => alike c d)
    (apart : rs.IsChain fun a b => ∃ ha hb, alike (a.getLast ha) (b.head hb) = false) :
    joinBlanks false rs.flatten = rs.flatMap writeRun := by
  induction rs with
  | nil => rfl
  | cons run rest ih =>
    rw [List.mem_cons, not_or] at filled
    have there : run ≠ [] := Ne.symm filled.1
    have written := ih filled.2 (fun r mem => uniform r (List.mem_cons_of_mem _ mem)) apart.tail
    rw [List.flatten_cons, List.flatMap_cons, ← written, writeRun]
    rcases blank_or_full (uniform run List.mem_cons_self) with blank | full
    · rw [if_pos (List.all_eq_true.2 blank)]
      refine joinBlanks_append_of_blank there blank fun c mem => ?_
      cases rest with
      | nil => cases mem
      | cons next others =>
        obtain ⟨_, hb, unlike⟩ := (List.isChain_cons_cons.1 apart).1
        rw [List.flatten_cons, List.head?_append_of_ne_nil _ hb, List.head?_eq_some_head hb] at mem
        rw [← Option.some.inj mem]
        simpa [alike, blank _ (List.getLast_mem there)] using unlike
    · obtain ⟨c, more, rfl⟩ := List.exists_cons_of_ne_nil there
      rw [if_neg (by simp [full c List.mem_cons_self]), joinBlanks_append_of_full full]

theorem joinBlanks_eq (cs : List Char) : joinBlanks false cs = blanksReplaced cs := by
  obtain ⟨whole, filled, uniform, apart⟩ := List.splitBy_eq_iff.1 (rfl : runs cs = runs cs)
  conv => lhs; rw [whole]
  exact joinBlanks_flatten filled uniform apart

/-- The normal form of a name is its lower-case form with each run of blanks replaced and a digit
in front guarded. -/
theorem normalize_eq (name : String) :
    normalize name = String.ofList (guardDigit (blanksReplaced (lowercase name).toList)) := by
  rw [normalize, joinBlanks_eq]

end ChangeCapture.ColumnName
