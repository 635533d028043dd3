import ChangeCapture.Proofs.Column.Registry
import ChangeCapture.RowEvent.Saving

/-!
# Columns seen value by value

What a registry tells of a column is a fold over the values seen under its name
(`ColumnRegistry.facts?_admit` is one step of it).  A mark stays, and so does a
kind.  So values may be seen in any order, unless the column is still open, that
is, without a kind, and two values suggest different kinds for it
(`ColumnRegistry.foldl_see_perm`).
-/

namespace ChangeCapture

/-- What is known of a column: its kind, and whether the source left out its value once. -/
structure Column.Facts where
  /-- The kind. -/
  kind : ColumnKind
  /-- Whether the source left out the value of the column at least once. -/
  toasted : Bool
  deriving DecidableEq

/-- What a column tells. -/
def Column.facts (c : Column) : Facts := ⟨c.kind, c.toasted⟩

namespace ColumnRegistry

open Column (Facts)

/-- What a registry tells of the column of a name. -/
def facts? (r : ColumnRegistry) (n : String) : Option Facts := (r.get? n).map Column.facts

/-! ## What is told after a change -/

theorem facts?_add (r : ColumnRegistry) (c : Column) (n : String) :
    (r.add c).facts? n =
      if n = c.name ∧ n ≠ "" then (r.facts? n).or (some c.facts) else r.facts? n := by
  simp only [facts?]
  by_cases same : n = c.name
  · by_cases named : n = ""
    · have unnamed : c.name = "" := same ▸ named
      simp [add, named, unnamed]
    · rw [if_pos ⟨same, named⟩]
      subst same
      rw [get?_add_self r named, Option.map_or]
      rfl
  · rw [if_neg fun both => same both.1]
    unfold add
    split
    · rfl
    · rw [get?_append, if_neg (Ne.symm same), Option.or_none]

theorem facts?_upgrade (r : ColumnRegistry) (name : String) (kind : ColumnKind) (n : String) :
    (r.upgrade name kind).facts? n =
      if n = name then
        (r.facts? n).map fun f => if f.kind = .invalid then { f with kind := kind } else f
      else r.facts? n := by
  simp only [facts?, upgrade]
  by_cases same : n = name
  · subst same
    cases hc : r.get? n with
    | none => simp [upgrades, hc]
    | some c =>
      cases upgraded : r.upgrades n kind with
      | true =>
        have skipped : c.kind = .invalid := by
          simp only [upgrades, hc, Bool.and_eq_true] at upgraded
          simpa [Column.isSkipped] using upgraded.2
        rw [if_pos rfl, get?_modify, if_pos rfl, hc]
        · simp [Column.facts, skipped]
        · exact fun _ => rfl
      | false =>
        have kept : kind = .invalid ∨ c.kind ≠ .invalid := by
          simpa [upgrades, hc, Column.isSkipped, or_iff_not_imp_left] using upgraded
        rw [if_neg Bool.false_ne_true, hc]
        rcases kept with rfl | typed
        · cases c
          simp +contextual [Column.facts]
        · simp [Column.facts, typed]
  · rw [if_neg same]
    split
    · rw [get?_modify, if_neg same]
      exact fun _ => rfl
    · rfl

theorem facts?_mark {r r' : ColumnRegistry} {name : String}
    (h : r.mark name .asToasted = .ok r') (n : String) :
    r'.facts? n =
      if n = name then some ⟨((r.facts? n).map Facts.kind).getD .invalid, true⟩
      else r.facts? n := by
  unfold mark at h
  simp only [facts?]
  split at h
  · cases h
  · cases hc : r.get? name with
    | some c =>
      rw [hc, Option.isSome_some, if_pos rfl] at h
      obtain rfl := Except.ok.inj h
      rw [get?_modify]
      · split
        · rename_i same
          rw [same, hc]
          rfl
        · rfl
      · exact fun _ => rfl
    | none =>
      rw [hc, Option.isSome_none, if_neg Bool.false_ne_true] at h
      obtain rfl := Except.ok.inj h
      have named : (ColumnMarks.asToasted.applyTo (.new name .invalid)).name = name := rfl
      rw [get?_append, named]
      by_cases same : n = name
      · rw [if_pos same.symm, if_pos same, same, hc]
        rfl
      · rw [if_neg (Ne.symm same), if_neg same, Option.or_none]

/-! ## Seeing a value -/

/-- What is known of the column of a name after one of its values was seen. -/
def see (hints : Option KindHints) (n : String) (known : Option Facts) (v : String × Json) :
    Option Facts :=
  if v.2.standsForUnavailable then some ⟨(known.map Facts.kind).getD .invalid, true⟩
  else
    match known with
    | none => if n = "" then none else some ⟨.infer hints v.1 v.2, false⟩
    | some f => some (if f.kind = .invalid then { f with kind := .infer hints v.1 v.2 } else f)

/-- A value tells something of its column only. -/
theorem facts?_admit {r r' : ColumnRegistry} {hints : Option KindHints} {v : String × Json}
    (h : r.admit hints v.1 v.2 = .ok r') (n : String) :
    r'.facts? n =
      if n = ColumnName.normalize v.1 then see hints n (r.facts? n) v else r.facts? n := by
  unfold ColumnRegistry.admit at h
  simp only at h
  unfold see
  split at h
  · rename_i unavailable
    rw [facts?_mark h, if_pos unavailable]
  · rename_i available
    rw [if_neg available]
    cases hc : r.get? (ColumnName.normalize v.1) with
    | none =>
      rw [hc] at h
      obtain rfl := Except.ok.inj h
      rw [facts?_add]
      by_cases same : n = ColumnName.normalize v.1
      · have unknown : r.facts? n = none := by rw [facts?, same, hc, Option.map_none]
        rw [if_pos same, unknown]
        by_cases named : n = "" <;> simp [named, same, Column.new, Column.facts]
      · rw [if_neg same, if_neg fun both => same both.1]
    | some c =>
      rw [hc] at h
      obtain rfl := Except.ok.inj h
      have known : r.facts? (ColumnName.normalize v.1) = some c.facts := by
        rw [facts?, hc, Option.map_some]
      cases skipped : c.isSkipped with
      | true =>
        rw [if_pos rfl, facts?_upgrade]
        by_cases same : n = ColumnName.normalize v.1
        · rw [if_pos same, if_pos same, same, known, Option.map_some]
        · rw [if_neg same, if_neg same]
      | false =>
        have typed : c.facts.kind ≠ .invalid := by
          simpa [Column.isSkipped, Column.facts] using skipped
        rw [if_neg Bool.false_ne_true]
        split
        · rename_i same
          rw [same, known]
          simp [typed]
        · rfl

/-! ## Any order -/

/-- The column of a name may still take a kind: it has none, or it is not there and has a name. -/
def IsOpen (n : String) : Option Facts → Prop
  | none => n ≠ ""
  | some f => f.kind = .invalid

/-- The value suggests a kind for its column. -/
structure Suggests (hints : Option KindHints) (v : String × Json) (kind : ColumnKind) : Prop where
  /-- The source did not leave the value out. -/
  available : v.2.standsForUnavailable = false
  /-- The value is of the kind, or a hint says so. -/
  inferred : ColumnKind.infer hints v.1 v.2 = kind
  /-- It is a kind. -/
  typed : kind ≠ .invalid

/-- The values do not suggest different kinds. -/
def Concur (hints : Option KindHints) (u v : String × Json) : Prop :=
  ∀ kind kind', Suggests hints u kind → Suggests hints v kind' → kind = kind'

variable {hints : Option KindHints} {n : String} {known : Option Facts} {u v : String × Json}

/-- An open column takes the kind of a value, be it none. -/
theorem see_of_isOpen (isOpen : IsOpen n known) (available : v.2.standsForUnavailable = false) :
    see hints n known v =
      some ⟨.infer hints v.1 v.2, (known.map Facts.toasted).getD false⟩ := by
  unfold see
  rw [available, if_neg Bool.false_ne_true]
  cases known with
  | none =>
    have named : n ≠ "" := isOpen
    exact if_neg named
  | some f =>
    have untyped : f.kind = .invalid := isOpen
    simp [untyped]

/-- A value says nothing of a column that is not open. -/
theorem see_of_not_isOpen (closed : ¬ IsOpen n known)
    (available : v.2.standsForUnavailable = false) : see hints n known v = known := by
  unfold see
  rw [available, if_neg Bool.false_ne_true]
  cases known with
  | none =>
    have empty : n = "" := not_not.1 closed
    exact if_pos empty
  | some f =>
    have typed : f.kind ≠ .invalid := closed
    simp [typed]

theorem foldl_see_of_not_isOpen (closed : ¬ IsOpen n known) {vs : List (String × Json)}
    (available : ∀ v ∈ vs, v.2.standsForUnavailable = false) :
    vs.foldl (see hints n) known = known := by
  induction vs with
  | nil => rfl
  | cons v rest ih =>
    have available := List.forall_mem_cons.1 available
    rw [List.foldl_cons, see_of_not_isOpen closed available.1, ih available.2]

/-- A value that was left out marks its column, and the kind stays. -/
theorem see_of_unavailable (unavailable : v.2.standsForUnavailable) :
    see hints n known v = some ⟨(known.map Facts.kind).getD .invalid, true⟩ := by
  unfold see
  exact if_pos unavailable

/-- A column that is open after a value was seen was open before. -/
theorem isOpen_of_see (named : v.2.standsForUnavailable → n ≠ "")
    (h : IsOpen n (see hints n known v)) : IsOpen n known := by
  cases unavailable : v.2.standsForUnavailable with
  | true =>
    rw [see_of_unavailable unavailable] at h
    cases known with
    | none => exact named unavailable
    | some f => exact h
  | false =>
    by_contra closed
    rw [see_of_not_isOpen closed unavailable] at h
    exact closed h

/-- A kind stays. -/
theorem see_of_typed {f : Facts} (typed : f.kind ≠ .invalid) (v : String × Json) :
    ∃ g, see hints n (some f) v = some g ∧ g.kind = f.kind := by
  cases unavailable : v.2.standsForUnavailable with
  | true => exact ⟨_, see_of_unavailable unavailable, rfl⟩
  | false => exact ⟨f, see_of_not_isOpen typed unavailable, rfl⟩

theorem foldl_see_of_typed {f : Facts} (typed : f.kind ≠ .invalid) (vs : List (String × Json)) :
    ∃ g, vs.foldl (see hints n) (some f) = some g ∧ g.kind = f.kind := by
  induction vs generalizing f with
  | nil => exact ⟨f, rfl, rfl⟩
  | cons v rest ih =>
    obtain ⟨g, hg, same⟩ : ∃ g, see hints n (some f) v = some g ∧ g.kind = f.kind :=
      see_of_typed typed v
    rw [List.foldl_cons, hg, ← same]
    exact ih (same ▸ typed)

/-- An open column has the kind that the first value suggests in the end. -/
theorem foldl_see_of_first {kind : ColumnKind} (isOpen : IsOpen n known)
    (suggests : Suggests hints v kind) (vs : List (String × Json)) :
    ∃ g, (v :: vs).foldl (see hints n) known = some g ∧ g.kind = kind := by
  rw [List.foldl_cons, see_of_isOpen isOpen suggests.available, ← suggests.inferred]
  exact foldl_see_of_typed (suggests.inferred ▸ suggests.typed) vs

/-- An open column stays open while no value suggests a kind. -/
theorem isOpen_see (isOpen : IsOpen n known) (silent : ∀ kind, ¬ Suggests hints v kind) :
    IsOpen n (see hints n known v) := by
  cases unavailable : v.2.standsForUnavailable with
  | true =>
    rw [see_of_unavailable unavailable]
    cases known with
    | none => rfl
    | some f => exact isOpen
  | false =>
    rw [see_of_isOpen isOpen unavailable]
    by_contra typed
    exact silent _ ⟨unavailable, rfl, typed⟩

theorem isOpen_foldl_see (isOpen : IsOpen n known) {vs : List (String × Json)}
    (silent : ∀ v ∈ vs, ∀ kind, ¬ Suggests hints v kind) :
    IsOpen n (vs.foldl (see hints n) known) := by
  induction vs generalizing known with
  | nil => exact isOpen
  | cons v rest ih =>
    have silent := List.forall_mem_cons.1 silent
    exact ih (isOpen_see isOpen silent.1) silent.2

/-- An open column has the kind that the values agree on in the end, if one suggests it. -/
theorem foldl_see_of_agreed {kind : ColumnKind} (isOpen : IsOpen n known)
    {vs : List (String × Json)} (suggested : ∃ v ∈ vs, Suggests hints v kind)
    (agreed : ∀ v ∈ vs, ∀ kind', Suggests hints v kind' → kind' = kind) :
    ∃ g, vs.foldl (see hints n) known = some g ∧ g.kind = kind := by
  induction vs generalizing known with
  | nil =>
    obtain ⟨v, mem, -⟩ := suggested
    cases mem
  | cons v rest ih =>
    have agreed := List.forall_mem_cons.1 agreed
    by_cases silent : ∀ kind, ¬ Suggests hints v kind
    · refine ih (isOpen_see isOpen silent) ?_ agreed.2
      obtain ⟨u, mem, suggests⟩ := suggested
      rcases List.mem_cons.1 mem with rfl | mem
      · exact absurd suggests (silent kind)
      · exact ⟨u, mem, suggests⟩
    · simp only [not_forall, not_not] at silent
      obtain ⟨kind', suggests⟩ := silent
      obtain rfl := agreed.1 kind' suggests
      exact foldl_see_of_first isOpen suggests rest

/-- A mark goes beside the kind. -/
theorem see_comm_of_unavailable (unavailable : u.2.standsForUnavailable) (named : n ≠ "") :
    see hints n (see hints n known u) v = see hints n (see hints n known v) u := by
  rw [see_of_unavailable unavailable, see_of_unavailable unavailable]
  cases hv : v.2.standsForUnavailable with
  | true => rw [see_of_unavailable hv, see_of_unavailable hv]
  | false =>
    by_cases isOpen : IsOpen n known
    · have marked : IsOpen n (some ⟨(known.map Facts.kind).getD .invalid, true⟩) := by
        cases known with
        | none => rfl
        | some f => exact isOpen
      rw [see_of_isOpen isOpen hv, see_of_isOpen marked hv]
      rfl
    · have marked : ¬ IsOpen n (some ⟨(known.map Facts.kind).getD .invalid, true⟩) := by
        cases known with
        | none => exact absurd named isOpen
        | some f => exact isOpen
      rw [see_of_not_isOpen isOpen hv, see_of_not_isOpen marked hv]

theorem see_comm (named : u.2.standsForUnavailable → n ≠ "")
    (named' : v.2.standsForUnavailable → n ≠ "")
    (concur : IsOpen n known → Concur hints u v) :
    see hints n (see hints n known u) v = see hints n (see hints n known v) u := by
  cases hu : u.2.standsForUnavailable with
  | true => exact see_comm_of_unavailable hu (named hu)
  | false =>
    cases hv : v.2.standsForUnavailable with
    | true => exact (see_comm_of_unavailable hv (named' hv)).symm
    | false =>
      by_cases isOpen : IsOpen n known
      · rw [see_of_isOpen isOpen hu, see_of_isOpen isOpen hv]
        by_cases untyped : ColumnKind.infer hints u.1 u.2 = .invalid
        · by_cases untyped' : ColumnKind.infer hints v.1 v.2 = .invalid <;>
            simp [see, hu, hv, untyped, untyped']
        · by_cases untyped' : ColumnKind.infer hints v.1 v.2 = .invalid
          · simp [see, hu, hv, untyped, untyped']
          · have same := concur isOpen _ _ ⟨hu, rfl, untyped⟩ ⟨hv, rfl, untyped'⟩
            simp [see, hu, hv, untyped', same]
      · rw [see_of_not_isOpen isOpen hu, see_of_not_isOpen isOpen hv,
          see_of_not_isOpen isOpen hu]

/-- What is known in the end does not depend on the order in which the values were seen, if no two
of them suggest different kinds for a column that is open. -/
theorem foldl_see_perm {vs vs' : List (String × Json)} (perm : vs.Perm vs')
    (named : ∀ v ∈ vs, v.2.standsForUnavailable → n ≠ "")
    (concur : IsOpen n known → ∀ u ∈ vs, ∀ v ∈ vs, Concur hints u v) :
    vs.foldl (see hints n) known = vs'.foldl (see hints n) known := by
  induction perm generalizing known with
  | nil => rfl
  | cons v _ ih =>
    rw [List.foldl_cons, List.foldl_cons]
    have named := List.forall_mem_cons.1 named
    refine ih named.2 fun isOpen u hu v' hv' => ?_
    exact concur (isOpen_of_see named.1 isOpen) u (List.mem_cons_of_mem v hu) v'
      (List.mem_cons_of_mem v hv')
  | swap u v rest =>
    simp only [List.foldl_cons]
    rw [see_comm]
    · exact named _ (by simp)
    · exact named _ (by simp)
    · exact fun isOpen => concur isOpen _ (by simp) _ (by simp)
  | trans perm _ ih ih' =>
    rw [ih named concur]
    refine ih' (fun v hv => named v (perm.mem_iff.2 hv)) fun isOpen u hu v hv => ?_
    exact concur isOpen u (perm.mem_iff.2 hu) v (perm.mem_iff.2 hv)

end ColumnRegistry

end ChangeCapture
