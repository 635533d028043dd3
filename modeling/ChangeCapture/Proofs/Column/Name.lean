import ChangeCapture.Column.Name

/-!
# Names in normal form

The lower-case form of a text is lower case, and so is the normal form of a
column name.  So a column that is looked up by the lower-case form of a normal
name is looked up by the name itself.  A name in normal form (`ColumnName.IsNormal`)
has no blanks and no digit in front either, and is its own normal form
(`ColumnName.normalize_eq_self_iff`).
-/

namespace ChangeCapture.Unicode

/-! ## Settled characters -/

/-- Whether a character is its own lower-case form in every context. -/
def isSettled (c : Char) : Bool := c != 'Σ' && lowerChar c == [c]

theorem lowerAfter_of_settled {cs : List Char} (h : ∀ c ∈ cs, isSettled c) (before : List Char) :
    lowerAfter before cs = cs := by
  induction cs generalizing before with
  | nil => rfl
  | cons c rest ih =>
    have settled := h c List.mem_cons_self
    simp only [isSettled, Bool.and_eq_true, bne_iff_ne, beq_iff_eq] at settled
    unfold lowerAfter
    rw [ih fun c mem => h c (List.mem_cons_of_mem _ mem)]
    simp [settled.1, settled.2]

theorem settled_ascii : ∀ n < 0x80, isSettled (Char.ofNat n).toLower := by
  decide +kernel

theorem toLower_of_not_upper : ∀ n < 0x80, 90 < n ∨ n < 65 →
    (Char.ofNat n).toLower = Char.ofNat n := by
  decide +kernel

/-- The least image of a run. -/
def CaseRun.low (r : CaseRun) : Nat := ((r.first : Int) + r.delta).toNat

/-- The greatest image of a run. -/
def CaseRun.high (r : CaseRun) : Nat := ((r.last : Int) + r.delta).toNat

/-- The images of a run are no characters of another run: they lie before it, after it, or between
its characters. -/
def CaseRun.avoids (r r' : CaseRun) : Bool :=
  Nat.blt r.high r'.first || Nat.blt r'.last r.low ||
    ((r.step == 2 || r.first == r.last) && r'.step == 2 && (r.low + r'.first) % 2 == 1)

/-- The images of a run are characters that need no context and no other rule. -/
def CaseRun.isPlain (r : CaseRun) : Bool :=
  0 ≤ (r.first : Int) + r.delta && (90 < r.low || r.high < 65) &&
    (r.high < 0x130 || 0x130 < r.low) && (r.high < 0x3a3 || 0x3a3 < r.low) &&
    (r.high < 0xd800 || 0xdfff < r.low && r.high < 0x110000)

theorem runs_avoid_runs : (lowercaseRuns.all fun r => lowercaseRuns.all r.avoids) = true := by
  decide +kernel

theorem runs_are_plain : lowercaseRuns.all CaseRun.isPlain = true := by
  decide +kernel

theorem CaseRun.image_bounds {r : CaseRun} {c : Nat} (h : r.holds c) :
    r.low ≤ ((c : Int) + r.delta).toNat ∧ ((c : Int) + r.delta).toNat ≤ r.high := by
  simp only [holds, Bool.and_eq_true, decide_eq_true_eq] at h
  unfold low high
  omega

/-- The image of a character of a run belongs to no run that the run avoids. -/
theorem CaseRun.not_holds_image {r r' : CaseRun} (plain : r.isPlain) (apart : r.avoids r')
    {c : Nat} (h : r.holds c) : r'.holds ((c : Int) + r.delta).toNat = false := by
  have bounds := image_bounds h
  simp only [holds, Bool.and_eq_true, decide_eq_true_eq, beq_iff_eq] at h
  simp only [isPlain, Bool.and_eq_true, decide_eq_true_eq] at plain
  simp only [avoids, Bool.or_eq_true, Bool.and_eq_true, Nat.blt_eq, beq_iff_eq] at apart
  rw [Bool.eq_false_iff]
  intro held
  simp only [holds, Bool.and_eq_true, decide_eq_true_eq, beq_iff_eq] at held
  rcases apart with (before | after) | ⟨⟨same, step⟩, odd⟩
  · omega
  · omega
  · rw [step] at held
    unfold low at odd
    rcases same with two | single
    · rw [two] at h
      omega
    · omega

theorem CaseRun.settled_image {r : CaseRun} (mem : r ∈ lowercaseRuns) {c : Nat} (h : r.holds c) :
    isSettled (Char.ofNat ((c : Int) + r.delta).toNat) := by
  have plain := List.all_eq_true.1 runs_are_plain r mem
  have avoids := List.all_eq_true.1 (List.all_eq_true.1 runs_avoid_runs r mem)
  obtain ⟨low, high⟩ := image_bounds h
  have outside : ∀ r' ∈ lowercaseRuns, ¬ r'.holds ((c : Int) + r.delta).toNat := by
    intro r' mem'
    rw [not_holds_image plain (avoids r' mem') h]
    exact Bool.false_ne_true
  generalize ((c : Int) + r.delta).toNat = n at low high outside
  simp only [isPlain, Bool.and_eq_true, Bool.or_eq_true, decide_eq_true_eq] at plain
  have valid : (Char.ofNat n).toNat = n := by
    have scalar : n.isValidChar := by
      unfold Nat.isValidChar
      omega
    unfold Char.ofNat
    rw [dif_pos scalar]
    rfl
  have notSigma : Char.ofNat n ≠ 'Σ' := by
    intro same
    have : n = 'Σ'.toNat := by rw [← same, valid]
    have : 'Σ'.toNat = 0x3a3 := rfl
    omega
  have own : lowerChar (Char.ofNat n) = [Char.ofNat n] := by
    unfold lowerChar
    rw [valid]
    split
    · rw [toLower_of_not_upper n ‹_› (by omega)]
    · rw [if_neg (by omega), List.find?_eq_none.2 outside]
  simp [isSettled, notSigma, own]

/-- The lower-case form of a character outside any context is settled. -/
theorem settled_lowerChar {c d : Char} (hc : c ≠ 'Σ') (h : d ∈ lowerChar c) : isSettled d := by
  unfold lowerChar at h
  split at h
  · rename_i ascii
    have settled := settled_ascii c.toNat ascii
    rw [Char.ofNat_toNat] at settled
    rwa [List.mem_singleton.1 h]
  · split at h
    · have two : ['i', Char.ofNat 0x307].all isSettled = true := by decide +kernel
      exact List.all_eq_true.1 two d h
    · rename_i ascii dotted
      split at h
      · rename_i r hr
        rw [List.mem_singleton.1 h]
        have holds := List.find?_some (p := fun r : CaseRun => r.holds c.toNat) hr
        exact CaseRun.settled_image (List.mem_of_find?_eq_some hr) holds
      · rename_i hr
        rw [List.mem_singleton.1 h]
        have own : lowerChar c = [c] := by
          unfold lowerChar
          rw [if_neg ascii, if_neg dotted, hr]
        simp [isSettled, hc, own]

theorem settled_lowerAfter {before cs : List Char} : ∀ d ∈ lowerAfter before cs, isSettled d := by
  induction cs generalizing before with
  | nil =>
    intro d mem
    cases mem
  | cons c rest ih =>
    intro d mem
    unfold lowerAfter at mem
    rcases List.mem_append.1 mem with mem | mem
    · split at mem
      · have sigmas : isSettled 'ς' ∧ isSettled 'σ' := by decide +kernel
        rw [List.mem_singleton.1 mem]
        split
        · exact sigmas.1
        · exact sigmas.2
      · exact settled_lowerChar ‹_› mem
    · exact ih d mem

end ChangeCapture.Unicode

namespace ChangeCapture.ColumnName

open Unicode

/-! ## Normal forms -/

theorem mem_joinBlanks {inRun : Bool} {cs : List Char} {c : Char} (h : c ∈ joinBlanks inRun cs) :
    c ∈ cs ∨ c = '_' := by
  induction cs generalizing inRun with
  | nil => cases h
  | cons d rest ih =>
    unfold joinBlanks at h
    split at h
    · split at h
      · exact (ih h).imp_left (List.mem_cons_of_mem d)
      · rcases List.mem_cons.1 h with rfl | h
        · exact .inr rfl
        · rcases List.mem_cons.1 h with rfl | h
          · exact .inr rfl
          · exact (ih h).imp_left (List.mem_cons_of_mem d)
    · rcases List.mem_cons.1 h with rfl | h
      · exact .inl List.mem_cons_self
      · exact (ih h).imp_left (List.mem_cons_of_mem d)

theorem mem_guardDigit {cs : List Char} {c : Char} (h : c ∈ guardDigit cs) :
    c ∈ cs ∨ c ∈ ['c', 'o', 'l', '_'] := by
  unfold guardDigit at h
  split at h
  · split at h
    · rename_i rest _
      have split : c ∈ ['c', 'o', 'l', '_'] ++ _ := h
      exact (List.mem_append.1 split).symm
    · exact .inl h
  · exact .inl h

theorem settled_normalize (name : String) : ∀ c ∈ (normalize name).toList, isSettled c := by
  intro c mem
  have extra : ['c', 'o', 'l', '_'].all isSettled = true := by decide +kernel
  rw [List.all_eq_true] at extra
  unfold normalize at mem
  rw [String.toList_ofList] at mem
  rcases mem_guardDigit mem with mem | mem
  · rcases mem_joinBlanks mem with mem | rfl
    · unfold lowercase at mem
      rw [String.toList_ofList] at mem
      exact settled_lowerAfter c mem
    · exact extra '_' (by simp)
  · exact extra c mem

/-- A name in normal form is lower case. -/
theorem lowercase_normalize (name : String) :
    lowercase (normalize name) = normalize name := by
  unfold lowercase
  rw [lowerAfter_of_settled (settled_normalize name), String.ofList_toList]

/-! ## Names in normal form -/

/-- A name is in normal form: it has no blanks, no digit in front, and is lower case. -/
structure IsNormal (name : String) : Prop where
  /-- No character is a blank. -/
  full : ∀ c ∈ name.toList, isBlank c = false
  /-- The first character is no digit. -/
  guarded : ∀ c ∈ name.toList.head?, c.isDigit = false
  /-- The name is its own lower-case form. -/
  lower : lowercase name = name

theorem not_blank_of_mem_joinBlanks {inRun : Bool} {cs : List Char} {c : Char}
    (h : c ∈ joinBlanks inRun cs) : isBlank c = false := by
  induction cs generalizing inRun with
  | nil => cases h
  | cons d rest ih =>
    have underscore : isBlank '_' = false := by decide +kernel
    unfold joinBlanks at h
    split at h
    · split at h
      · exact ih h
      · rcases List.mem_cons.1 h with rfl | h
        · exact underscore
        · rcases List.mem_cons.1 h with rfl | h
          · exact underscore
          · exact ih h
    · rename_i full
      rcases List.mem_cons.1 h with rfl | h
      · simpa using full
      · exact ih h

theorem full_normalize (name : String) : ∀ c ∈ (normalize name).toList, isBlank c = false := by
  have letters : ∀ c ∈ ['c', 'o', 'l', '_'], isBlank c = false := by
    simp only [List.forall_mem_cons]
    exact ⟨rfl, rfl, rfl, rfl, nofun⟩
  intro c mem
  unfold normalize at mem
  rw [String.toList_ofList] at mem
  rcases mem_guardDigit mem with mem | mem
  · exact not_blank_of_mem_joinBlanks mem
  · exact letters c mem

theorem guarded_guardDigit (cs : List Char) : ∀ c ∈ (guardDigit cs).head?, c.isDigit = false := by
  intro c mem
  cases cs with
  | nil => cases mem
  | cons d rest =>
    simp only [guardDigit] at mem
    split at mem
    · obtain rfl := Option.some.inj mem
      decide
    · rename_i letter
      obtain rfl := Option.some.inj mem
      simpa using letter

theorem isNormal_normalize (name : String) : IsNormal (normalize name) where
  full := full_normalize name
  guarded := by
    unfold normalize
    rw [String.toList_ofList]
    exact guarded_guardDigit _
  lower := lowercase_normalize name

/-- Characters that are no blanks stay in front of what follows them. -/
theorem joinBlanks_append_of_full {cs : List Char} (h : ∀ c ∈ cs, isBlank c = false)
    (rest : List Char) : joinBlanks false (cs ++ rest) = cs ++ joinBlanks false rest := by
  induction cs with
  | nil => rfl
  | cons c more ih =>
    rw [List.cons_append, joinBlanks, h c List.mem_cons_self, if_neg Bool.false_ne_true,
      ih fun c mem => h c (List.mem_cons_of_mem _ mem), List.cons_append]

theorem joinBlanks_of_full {cs : List Char} (h : ∀ c ∈ cs, isBlank c = false) :
    joinBlanks false cs = cs := by
  simpa [joinBlanks] using joinBlanks_append_of_full h []

theorem guardDigit_of_guarded {cs : List Char} (h : ∀ c ∈ cs.head?, c.isDigit = false) :
    guardDigit cs = cs := by
  cases cs with
  | nil => rfl
  | cons c rest => rw [guardDigit, h c rfl, if_neg Bool.false_ne_true]

/-- The names in normal form are those that are their own normal form. -/
theorem normalize_eq_self_iff {name : String} : normalize name = name ↔ IsNormal name := by
  constructor
  · intro same
    rw [← same]
    exact isNormal_normalize name
  · rintro ⟨full, guarded, lower⟩
    rw [normalize, lower, joinBlanks_of_full full, guardDigit_of_guarded guarded,
      String.ofList_toList]

/-- A name in normal form is its own normal form. -/
theorem normalize_normalize (name : String) : normalize (normalize name) = normalize name :=
  normalize_eq_self_iff.2 (isNormal_normalize name)

end ChangeCapture.ColumnName
