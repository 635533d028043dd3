import ChangeCapture.SortedMap
import Mathlib.Algebra.GroupWithZero.Nat
import Mathlib.Order.Defs.LinearOrder
import Mathlib.Order.Compare
import Mathlib.Data.List.Nodup

/-!
# Laws of maps sorted by key

What membership of values, of keys and the operations built on `insert` say
about look-ups.
-/

namespace ChangeCapture

universe u v w

variable {κ : Type u} {ν : Type v} [Ord κ] [Std.LawfulEqOrd κ]

theorem Entries.get?_cons [DecidableEq κ] (k : κ) (e : κ × ν) (rest : List (κ × ν)) :
    get? k (e :: rest) = if k = e.1 then some e.2 else get? k rest := by
  show (if compare k e.1 = .eq then some e.2 else get? k rest) = _
  by_cases same : k = e.1
  · simp [same, Std.ReflCmp.compare_self]
  · have other : compare k e.1 ≠ .eq := fun h => same (Std.LawfulEqCmp.eq_of_compare h)
    simp [same, other]

namespace SortedMap

theorem mem_values_iff {m : SortedMap κ ν} {v : ν} : v ∈ m.values ↔ ∃ k, m.get? k = some v := by
  simp only [values, List.mem_map, Prod.exists, get?_eq_some_iff, toList, exists_eq_right]

theorem mem_keys_iff {m : SortedMap κ ν} {k : κ} : k ∈ m.keys ↔ ∃ v, m.get? k = some v := by
  simp only [keys, List.mem_map, Prod.exists, get?_eq_some_iff, toList, exists_and_right,
    exists_eq_right]

theorem isEmpty_iff {m : SortedMap κ ν} : m.isEmpty ↔ ∀ k, m.get? k = none := by
  constructor
  · intro h k
    cases hk : m.get? k with
    | none => rfl
    | some v =>
      have mem := get?_eq_some_iff.1 hk
      simp only [isEmpty, List.isEmpty_iff] at h
      simp [toList, h] at mem
  · intro h
    simp only [isEmpty, List.isEmpty_iff, List.eq_nil_iff_forall_not_mem, Prod.forall]
    intro k v mem
    have := get?_eq_some_iff.2 mem
    simp [h k] at this

theorem values_eq_nil_iff {m : SortedMap κ ν} : m.values = [] ↔ ∀ k, m.get? k = none := by
  rw [← isEmpty_iff, values, List.map_eq_nil_iff, isEmpty, List.isEmpty_iff]

theorem values_eq_map_keys (m : SortedMap κ ν) (d : ν) :
    m.values = m.keys.map fun k => m.getD k d := by
  simp only [values, keys, List.map_map]
  refine List.map_congr_left fun e mem => ?_
  have there : m.get? e.1 = some e.2 := get?_eq_some_iff.2 mem
  simp only [Function.comp_apply, getD, there, Option.getD_some]

theorem getD_erase [DecidableEq κ] (m : SortedMap κ ν) (k k' : κ) (d : ν) :
    (m.erase k).getD k' d = if k' = k then d else m.getD k' d := by
  simp only [getD]
  rw [get?_erase]
  split <;> rfl

theorem get?_mapValues {μ : Type w} (f : κ → ν → μ) (m : SortedMap κ ν) (k : κ) :
    (m.mapValues f).get? k = (m.get? k).map (f k) := by
  refine Option.ext fun v => ?_
  rw [get?_eq_some_iff, Option.map_eq_some_iff]
  simp only [get?_eq_some_iff, mapValues, toList, List.mem_map, Prod.mk.injEq]
  constructor
  · rintro ⟨e, mem, rfl, rfl⟩
    exact ⟨e.2, mem, rfl⟩
  · rintro ⟨u, mem, rfl⟩
    exact ⟨(k, u), mem, rfl, rfl⟩

theorem nodup_keys (m : SortedMap κ ν) : m.keys.Nodup := by
  simp only [keys, List.Nodup]
  rw [List.pairwise_map]
  refine m.sorted.imp fun {e e'} lt same => ?_
  simp [same, Std.ReflCmp.compare_self] at lt

theorem nodup_toList (m : SortedMap κ ν) : m.toList.Nodup := List.Nodup.of_map Prod.fst m.nodup_keys

theorem mem_toList_erase [DecidableEq κ] {m : SortedMap κ ν} {k : κ} {e : κ × ν} :
    e ∈ (m.erase k).toList ↔ e.1 ≠ k ∧ e ∈ m.toList := by
  obtain ⟨k', v⟩ := e
  rw [← get?_eq_some_iff, get?_erase, ← get?_eq_some_iff]
  by_cases same : k' = k <;> simp [same]

section Insertion

variable [Std.TransOrd κ]

theorem insert_insert [DecidableEq κ] (m : SortedMap κ ν) (k : κ) (u v : ν) :
    (m.insert k u).insert k v = m.insert k v := by
  refine ext_get? fun k' => ?_
  rw [get?_insert, get?_insert, get?_insert]
  split <;> rfl

theorem insert_of_get? [DecidableEq κ] {m : SortedMap κ ν} {k : κ} {v : ν}
    (h : m.get? k = some v) : m.insert k v = m := by
  refine ext_get? fun k' => ?_
  rw [get?_insert]
  split
  · rename_i hk
    rw [hk, h]
  · rfl

theorem get?_alter [DecidableEq κ] (m : SortedMap κ ν) (k k' : κ) (f : Option ν → ν) :
    (m.alter k f).get? k' = if k' = k then some (f (m.get? k)) else m.get? k' :=
  get?_insert m k k' _

theorem get?_modify [DecidableEq κ] (m : SortedMap κ ν) (k k' : κ) (f : ν → ν) :
    (m.modify k f).get? k' = if k' = k then (m.get? k).map f else m.get? k' := by
  simp only [modify]
  cases hk : m.get? k with
  | some v => rw [get?_insert, Option.map_some]
  | none =>
    by_cases same : k' = k
    · simp [same, hk]
    · simp [same]

theorem contains_insert_of_get? [DecidableEq κ] {m : SortedMap κ ν} {k : κ} {old : ν}
    (h : m.get? k = some old) (v : ν) (k' : κ) : (m.insert k v).contains k' = m.contains k' := by
  simp only [contains]
  rw [get?_insert]
  split
  · rename_i same
    rw [same, h]
    rfl
  · rfl

theorem contains_modify [DecidableEq κ] (m : SortedMap κ ν) (k k' : κ) (f : ν → ν) :
    (m.modify k f).contains k' = m.contains k' := by
  simp only [contains]
  rw [get?_modify]
  split
  · rename_i same
    rw [same, Option.isSome_map]
  · rfl

/-- The entries after an insertion are the new one and the entries of the other keys. -/
theorem toList_insert_perm [DecidableEq κ] (m : SortedMap κ ν) (k : κ) (v : ν) :
    (m.insert k v).toList.Perm ((k, v) :: (m.erase k).toList) := by
  have fresh : (k, v) ∉ (m.erase k).toList := fun mem => (mem_toList_erase.1 mem).1 rfl
  refine (List.perm_ext_iff_of_nodup (nodup_toList _)
    (List.nodup_cons.2 ⟨fresh, nodup_toList _⟩)).2 fun e => ?_
  obtain ⟨k', v'⟩ := e
  rw [← get?_eq_some_iff, get?_insert, List.mem_cons, mem_toList_erase, ← get?_eq_some_iff]
  by_cases same : k' = k
  · simp [same, eq_comm]
  · simp [same]

theorem toList_perm_of_get? [DecidableEq κ] {m : SortedMap κ ν} {k : κ} {v : ν}
    (h : m.get? k = some v) : m.toList.Perm ((k, v) :: (m.erase k).toList) := by
  have inserted := m.toList_insert_perm k v
  rwa [insert_of_get? h] at inserted

theorem erase_of_get? [DecidableEq κ] {m : SortedMap κ ν} {k : κ} (h : m.get? k = none) :
    m.erase k = m := by
  refine ext_get? fun k' => ?_
  rw [get?_erase]
  split
  · rename_i same
    rw [same, h]
  · rfl

/-- A sum over the values is what the value of one key adds and the sum over the others. -/
theorem sum_values [DecidableEq κ] (f : ν → Nat) (m : SortedMap κ ν) (k : κ) :
    (m.values.map f).sum = ((m.get? k).map f).getD 0 + ((m.erase k).values.map f).sum := by
  cases there : m.get? k with
  | none => simp [erase_of_get? there]
  | some v =>
    have perm := (toList_perm_of_get? there).map fun e => f e.2
    simpa [values, toList, Function.comp_def] using perm.sum_nat

theorem sum_values_insert [DecidableEq κ] (f : ν → Nat) (m : SortedMap κ ν) (k : κ) (v : ν) :
    ((m.insert k v).values.map f).sum = f v + ((m.erase k).values.map f).sum := by
  have perm := (m.toList_insert_perm k v).map fun e => f e.2
  simpa [values, toList, Function.comp_def] using perm.sum_nat

theorem getD_insert [DecidableEq κ] (m : SortedMap κ ν) (k k' : κ) (v d : ν) :
    (m.insert k v).getD k' d = if k' = k then v else m.getD k' d := by
  simp only [getD]
  rw [get?_insert]
  split <;> rfl

/-! ## Lists of entries -/

variable [DecidableEq κ]

theorem mem_of_get?_insertMany {m : SortedMap κ ν} {l : List (κ × ν)} {k : κ} {v : ν}
    (h : (m.insertMany l).get? k = some v) : (k, v) ∈ l ∨ m.get? k = some v := by
  induction l generalizing m with
  | nil => exact .inr h
  | cons e rest ih =>
    rcases ih h with mem | h
    · exact .inl (List.mem_cons_of_mem e mem)
    · rw [get?_insert] at h
      split at h
      · rename_i same
        refine .inl (List.mem_cons.2 (.inl ?_))
        rw [same, ← Option.some.inj h]
      · exact .inr h

theorem get?_insertMany_isSome {m : SortedMap κ ν} {l : List (κ × ν)} {k : κ}
    (h : (∃ v, (k, v) ∈ l) ∨ ∃ v, m.get? k = some v) : ∃ v, (m.insertMany l).get? k = some v := by
  induction l generalizing m with
  | nil => exact h.resolve_left fun ⟨_, mem⟩ => List.not_mem_nil mem
  | cons e rest ih =>
    refine ih ?_
    rw [get?_insert]
    by_cases same : k = e.1
    · exact .inr ⟨e.2, if_pos same⟩
    · rw [if_neg same]
      refine h.imp_left fun ⟨v, mem⟩ => ⟨v, (List.mem_cons.1 mem).resolve_left ?_⟩
      rintro rfl
      exact same rfl

theorem mem_of_get?_ofList {l : List (κ × ν)} {k : κ} {v : ν}
    (h : (ofList l).get? k = some v) : (k, v) ∈ l :=
  (mem_of_get?_insertMany h).resolve_right fun none => by cases none

/-- A key whose entries all have one value has this value. -/
theorem get?_ofList_of_unique {l : List (κ × ν)} {k : κ} {v : ν} (mem : (k, v) ∈ l)
    (unique : ∀ u, (k, u) ∈ l → u = v) : (ofList l).get? k = some v := by
  obtain ⟨u, hu⟩ := get?_insertMany_isSome (m := empty) (.inl ⟨v, mem⟩)
  have hu : (ofList l).get? k = some u := hu
  rw [hu, unique u (mem_of_get?_ofList hu)]

/-- A map is the map of its entries. -/
theorem ofList_toList (m : SortedMap κ ν) : ofList m.toList = m := by
  refine ext_get? fun k => Option.ext fun v => ⟨fun h => ?_, fun h => ?_⟩
  · exact get?_eq_some_iff.2 (mem_of_get?_ofList h)
  · refine get?_ofList_of_unique (get?_eq_some_iff.1 h) fun u mem => ?_
    rw [← get?_eq_some_iff, h] at mem
    exact (Option.some.inj mem).symm

end Insertion

end SortedMap

end ChangeCapture
