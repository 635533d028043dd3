import ChangeCapture.Proofs.Column.Registry
import Mathlib.Algebra.GroupWithZero.Nat

/-!
# What a registry of columns knows

A registry only ever learns: that there is a column, that it has a kind, that the
source left out its value once.  What it knows can be counted
(`ColumnRegistry.known`), so a registry that is the same after several steps was
the same after each of them (`ColumnRegistry.Learns.trans`).
-/

namespace ChangeCapture

namespace ColumnRegistry

/-! ## What a registry knows -/

/-- How much a column tells: that it is there, whether it has a kind, and whether the source left
out its value once. -/
def knownOf (c : Column) : Nat := 1 + (!c.isSkipped).toNat + c.toasted.toNat

/-- How much a registry knows about its columns. -/
def known (r : ColumnRegistry) : Nat := (r.columns.map knownOf).sum

theorem known_append (cs : List Column) (c : Column) :
    (⟨cs ++ [c]⟩ : ColumnRegistry).known = (⟨cs⟩ : ColumnRegistry).known + knownOf c := by
  simp [known]

theorem known_lt_append (cs : List Column) (c : Column) :
    (⟨cs⟩ : ColumnRegistry).known < (⟨cs ++ [c]⟩ : ColumnRegistry).known := by
  rw [known_append, knownOf]
  omega

/-- Replacing the column of a name changes what is known by what is known of this column. -/
theorem known_modify {r : ColumnRegistry} {name : String} {c : Column} (f : Column → Column)
    (h : r.get? name = some c) :
    (r.modify name f).known + knownOf c = r.known + knownOf (f c) := by
  obtain ⟨cs⟩ := r
  simp only [get?] at h
  show ((modify.go name f cs).map knownOf).sum + _ = (cs.map knownOf).sum + _
  induction cs with
  | nil => cases h
  | cons first rest ih =>
    simp only [modify.go]
    by_cases named : first.name = name
    · rw [List.find?_cons_of_pos (by simp [named])] at h
      obtain rfl := Option.some.inj h
      simp only [named, beq_self_eq_true, if_true, List.map_cons, List.sum_cons]
      omega
    · rw [List.find?_cons_of_neg (by simpa using named)] at h
      have ih := ih h
      simp only [beq_eq_false_iff_ne.2 named, Bool.false_eq_true, if_false, List.map_cons,
        List.sum_cons]
      omega

/-- A registry in which the column of a name is replaced by itself is the same. -/
theorem modify_eq_self {r : ColumnRegistry} {name : String} {c : Column} {f : Column → Column}
    (h : r.get? name = some c) (same : f c = c) : r.modify name f = r := by
  obtain ⟨cs⟩ := r
  simp only [get?] at h
  show (⟨modify.go name f cs⟩ : ColumnRegistry) = ⟨cs⟩
  congr 1
  induction cs with
  | nil => cases h
  | cons first rest ih =>
    simp only [modify.go]
    by_cases named : first.name = name
    · rw [List.find?_cons_of_pos (by simp [named])] at h
      obtain rfl := Option.some.inj h
      simp [named, same]
    · rw [List.find?_cons_of_neg (by simpa using named)] at h
      simp [named, ih h]

/-- A registry stays as it is if nothing was news to it, and knows more if something was. -/
def Learns (noNews : Prop) (r r' : ColumnRegistry) : Prop :=
  (noNews ∧ r' = r) ∨ (¬ noNews ∧ r.known < r'.known)

variable {r r' r'' : ColumnRegistry} {p : Prop}

theorem Learns.eq_iff (h : Learns p r r') : r' = r ↔ p := by
  rcases h with ⟨noNews, same⟩ | ⟨news, more⟩
  · simp [noNews, same]
  · refine ⟨fun same => ?_, fun noNews => absurd noNews news⟩
    rw [same] at more
    exact absurd more (Nat.lt_irrefl _)

theorem Learns.known_le (h : Learns p r r') : r.known ≤ r'.known := by
  rcases h with ⟨-, rfl⟩ | ⟨-, more⟩
  · exact Nat.le_refl _
  · exact Nat.le_of_lt more

/-- What comes first and what comes next are both no news if nothing has changed in the end. -/
theorem Learns.trans {q : ColumnRegistry → Prop} (h : Learns p r r') (h' : Learns (q r') r' r'') :
    Learns (p ∧ q r) r r'' := by
  rcases h with ⟨noNews, rfl⟩ | ⟨news, more⟩
  · simpa [Learns, noNews] using h'
  · exact .inr ⟨fun both => news both.1, Nat.lt_of_lt_of_le more h'.known_le⟩

/-! ## Columns that are no news -/

/-- The column of a name is no news: the name is empty, or the column is there. -/
def Lists (r : ColumnRegistry) (name : String) : Prop := name = "" ∨ ∃ c, r.get? name = some c

theorem learns_add (r : ColumnRegistry) (c : Column) : Learns (r.Lists c.name) r (r.add c) := by
  simp only [add, Lists]
  by_cases named : c.name = ""
  · exact .inl ⟨.inl named, by simp [named]⟩
  · cases h : r.get? c.name with
    | some c' => exact .inl ⟨.inr ⟨c', rfl⟩, by simp⟩
    | none => exact .inr ⟨by simp [named], by simpa [named] using known_lt_append r.columns c⟩

theorem learns_addAll (r : ColumnRegistry) (cs : List Column) :
    Learns (∀ c ∈ cs, r.Lists c.name) r (r.addAll cs) := by
  induction cs generalizing r with
  | nil => exact .inl ⟨by simp, rfl⟩
  | cons c rest ih =>
    simp only [List.forall_mem_cons]
    exact (learns_add r c).trans (q := fun r => ∀ c ∈ rest, r.Lists c.name) (ih (r.add c))

/-- The source left out the value of the column once. -/
def Toasted (r : ColumnRegistry) (name : String) : Prop := ∃ c, r.get? name = some c ∧ c.toasted

theorem learns_mark {name : String} (h : r.mark name .asToasted = .ok r') :
    Learns (r.Toasted name) r r' := by
  unfold mark at h
  split at h
  · cases h
  · cases hc : r.get? name with
    | none =>
      simp only [hc, Option.isSome_none, Bool.false_eq_true, if_false] at h
      obtain rfl := Except.ok.inj h
      exact .inr ⟨by simp [Toasted, hc], known_lt_append r.columns _⟩
    | some c =>
      simp only [hc, Option.isSome_some, if_true] at h
      obtain rfl := Except.ok.inj h
      cases toasted : c.toasted with
      | true =>
        refine .inl ⟨⟨c, hc, toasted⟩, modify_eq_self hc ?_⟩
        cases c
        simp_all [ColumnMarks.applyTo, ColumnMarks.asToasted, ColumnMarks.none]
      | false =>
        have more : knownOf (ColumnMarks.asToasted.applyTo c) = knownOf c + 1 := by
          simp [knownOf, Column.isSkipped, ColumnMarks.applyTo, ColumnMarks.asToasted,
            ColumnMarks.none, toasted]
        have count := known_modify ColumnMarks.asToasted.applyTo hc
        exact .inr ⟨by simp [Toasted, hc, toasted], by omega⟩

theorem learns_upgrade {name : String} {c : Column} (hc : r.get? name = some c)
    (skipped : c.isSkipped) (kind : ColumnKind) :
    Learns (kind = .invalid) r (r.upgrade name kind) := by
  by_cases valid : kind = .invalid
  · exact .inl ⟨valid, by simp [upgrade, upgrades, valid]⟩
  · have upgrades : r.upgrades name kind := by
      simp [ColumnRegistry.upgrades, valid, hc, skipped]
    have typed : Column.isSkipped { c with kind := kind } = false := by
      simpa [Column.isSkipped] using valid
    have more : knownOf { c with kind := kind } = knownOf c + 1 := by
      simp only [knownOf, typed, skipped, Bool.not_true, Bool.not_false, Bool.toNat_true,
        Bool.toNat_false]
      omega
    have count := known_modify (fun c => { c with kind := kind }) hc
    refine .inr ⟨valid, ?_⟩
    simp only [upgrade]
    rw [if_pos upgrades]
    omega

theorem addAll_addAll (r : ColumnRegistry) (cs : List Column) :
    (r.addAll cs).addAll cs = r.addAll cs := by
  refine (learns_addAll (r.addAll cs) cs).eq_iff.2 fun c mem => ?_
  by_cases named : c.name = ""
  · exact .inl named
  · exact .inr (get?_addAll_of_mem mem named)

end ColumnRegistry

end ChangeCapture
