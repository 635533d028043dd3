/-!
# Maps sorted by key

A finite map is the list of its entries in strictly increasing key order.  Two
maps with the same look-ups are then the same value (`SortedMap.ext_get?`), so
statements about rows, buffers and stores do not mention an order of insertion.

Every operation is a plain recursion on the entries.  What it does to look-ups
is one lemma beside it (`get?_insert`, `get?_erase`, `get?_filter`).
-/

namespace ChangeCapture

universe u v w

/-! ## Entry lists -/

namespace Entries

variable {κ : Type u} {ν : Type v} [Ord κ]

/-- The keys of the entries strictly increase. -/
def Sorted (l : List (κ × ν)) : Prop :=
  l.Pairwise fun a b => compare a.1 b.1 = .lt

/-- Puts `v` under `k`, in place of what was there. -/
def insert (k : κ) (v : ν) : List (κ × ν) → List (κ × ν)
  | [] => [(k, v)]
  | e :: rest =>
    match compare k e.1 with
    | .lt => (k, v) :: e :: rest
    | .eq => (k, v) :: rest
    | .gt => e :: insert k v rest

/-- The value under `k`. -/
def get? (k : κ) : List (κ × ν) → Option ν
  | [] => none
  | e :: rest => if compare k e.1 = .eq then some e.2 else get? k rest

theorem mem_insert {k : κ} {v : ν} {l : List (κ × ν)} {e : κ × ν} (h : e ∈ insert k v l) :
    e = (k, v) ∨ e ∈ l := by
  induction l with
  | nil => simp_all [insert]
  | cons a l ih =>
    unfold insert at h
    split at h
    · simp_all
    · simp only [List.mem_cons] at h ⊢
      rcases h with h | h <;> simp_all
    · simp only [List.mem_cons] at h ⊢
      rcases h with h | h
      · simp_all
      · rcases ih h with h | h <;> simp_all

theorem sorted_insert [Std.TransOrd κ] (k : κ) (v : ν) {l : List (κ × ν)} (h : Sorted l) :
    Sorted (insert k v l) := by
  induction l with
  | nil => simp [insert, Sorted]
  | cons a l ih =>
    have ha := List.pairwise_cons.1 h
    unfold insert
    split
    · rename_i hk
      refine List.pairwise_cons.2 ⟨fun e he => ?_, h⟩
      rcases List.mem_cons.1 he with rfl | he
      · exact hk
      · exact Std.TransCmp.lt_trans hk (ha.1 e he)
    · rename_i hk
      refine List.pairwise_cons.2 ⟨fun e he => ?_, ha.2⟩
      exact Std.TransCmp.lt_of_eq_of_lt hk (ha.1 e he)
    · rename_i hk
      refine List.pairwise_cons.2 ⟨fun e he => ?_, ih ha.2⟩
      rcases mem_insert he with rfl | he
      · exact Std.OrientedCmp.lt_of_gt hk
      · exact ha.1 e he

theorem get?_eq_none_of_lt {k : κ} {l : List (κ × ν)}
    (h : ∀ e ∈ l, compare k e.1 = .lt) : get? k l = none := by
  induction l with
  | nil => rfl
  | cons a l ih =>
    have ha := h a (by simp)
    simp [get?, ha, ih fun e he => h e (by simp [he])]

variable [Std.LawfulEqOrd κ]

theorem get?_insert_self (k : κ) (v : ν) (l : List (κ × ν)) : get? k (insert k v l) = some v := by
  induction l with
  | nil => simp [insert, get?, Std.ReflCmp.compare_self]
  | cons a l ih =>
    unfold insert
    split <;> rename_i hk <;> simp [get?, hk, ih, Std.ReflCmp.compare_self]

theorem get?_insert_of_ne {k k' : κ} (v : ν) (l : List (κ × ν)) (hne : k' ≠ k) :
    get? k' (insert k v l) = get? k' l := by
  have hne' : compare k' k ≠ .eq := fun h => hne (Std.LawfulEqCmp.eq_of_compare h)
  induction l with
  | nil => simp [insert, get?, hne']
  | cons a l ih =>
    unfold insert
    split
    · simp [get?, hne']
    · rename_i hk
      have : k = a.1 := Std.LawfulEqCmp.eq_of_compare hk
      simp [get?, ← this, hne']
    · simp [get?, ih]

theorem get?_eq_some_iff {k : κ} {v : ν} {l : List (κ × ν)} (h : Sorted l) :
    get? k l = some v ↔ (k, v) ∈ l := by
  induction l with
  | nil => simp [get?]
  | cons a l ih =>
    have ha := List.pairwise_cons.1 h
    by_cases hk : compare k a.1 = .eq
    · have hka : k = a.1 := Std.LawfulEqCmp.eq_of_compare hk
      subst hka
      simp only [get?, hk, if_true, Option.some.injEq, List.mem_cons]
      constructor
      · rintro rfl; exact .inl rfl
      · rintro (h' | h')
        · exact (congrArg Prod.snd h').symm
        · have := ha.1 _ h'
          simp [Std.ReflCmp.compare_self] at this
    · simp only [get?, hk, if_false, ih ha.2, List.mem_cons]
      constructor
      · exact .inr
      · rintro (h' | h')
        · exact absurd (by rw [← h']; exact Std.ReflCmp.compare_self) hk
        · exact h'

theorem ext [Std.TransOrd κ] {l l' : List (κ × ν)} (h : Sorted l) (h' : Sorted l')
    (hget : ∀ k, get? k l = get? k l') : l = l' := by
  induction l generalizing l' with
  | nil =>
    cases l' with
    | nil => rfl
    | cons b l' =>
      have := hget b.1
      simp [get?, Std.ReflCmp.compare_self] at this
  | cons a l ih =>
    cases l' with
    | nil =>
      have := hget a.1
      simp [get?, Std.ReflCmp.compare_self] at this
    | cons b l' =>
      have ha := List.pairwise_cons.1 h
      have hb := List.pairwise_cons.1 h'
      have hab : compare a.1 b.1 = .eq := by
        cases hc : compare a.1 b.1 with
        | eq => rfl
        | lt =>
          have h1 := hget a.1
          rw [get?_eq_none_of_lt (l := b :: l')] at h1
          · simp [get?, Std.ReflCmp.compare_self] at h1
          · intro e he
            rcases List.mem_cons.1 he with rfl | he
            · exact hc
            · exact Std.TransCmp.lt_trans hc (hb.1 e he)
        | gt =>
          have hc' : compare b.1 a.1 = .lt := Std.OrientedCmp.lt_of_gt hc
          have h1 := hget b.1
          rw [get?_eq_none_of_lt (l := a :: l)] at h1
          · simp [get?, Std.ReflCmp.compare_self] at h1
          · intro e he
            rcases List.mem_cons.1 he with rfl | he
            · exact hc'
            · exact Std.TransCmp.lt_trans hc' (ha.1 e he)
      have hk : a.1 = b.1 := Std.LawfulEqCmp.eq_of_compare hab
      have hv : a.2 = b.2 := by
        have := hget a.1
        rw [hk] at this
        simpa [get?, Std.ReflCmp.compare_self, ← hk] using this
      have hl : l = l' := by
        refine ih ha.2 hb.2 fun k => ?_
        by_cases hka : compare k a.1 = .eq
        · have : k = a.1 := Std.LawfulEqCmp.eq_of_compare hka
          subst this
          rw [get?_eq_none_of_lt ha.1, get?_eq_none_of_lt (hk ▸ hb.1)]
        · have := hget k
          simpa [get?, hka, ← hk] using this
      rw [hl, Prod.ext hk hv]

end Entries

/-! ## Maps -/

/-- A finite map as its entries in strictly increasing key order. -/
structure SortedMap (κ : Type u) (ν : Type v) [Ord κ] where
  /-- The entries. -/
  entries : List (κ × ν)
  /-- Their keys strictly increase. -/
  sorted : Entries.Sorted entries

namespace SortedMap

variable {κ : Type u} {ν : Type v} [Ord κ]

/-- The map without entries. -/
def empty : SortedMap κ ν := ⟨[], List.Pairwise.nil⟩

instance : EmptyCollection (SortedMap κ ν) := ⟨empty⟩

instance : Inhabited (SortedMap κ ν) := ⟨empty⟩

/-- The entries in key order. -/
def toList (m : SortedMap κ ν) : List (κ × ν) := m.entries

/-- The keys in order. -/
def keys (m : SortedMap κ ν) : List κ := m.entries.map Prod.fst

/-- The values in the order of their keys. -/
def values (m : SortedMap κ ν) : List ν := m.entries.map Prod.snd

/-- The number of entries. -/
def size (m : SortedMap κ ν) : Nat := m.entries.length

/-- Whether there is no entry. -/
def isEmpty (m : SortedMap κ ν) : Bool := m.entries.isEmpty

/-- The value under a key. -/
def get? (m : SortedMap κ ν) (k : κ) : Option ν := Entries.get? k m.entries

/-- The value under a key, or `d` if there is none. -/
def getD (m : SortedMap κ ν) (k : κ) (d : ν) : ν := (m.get? k).getD d

/-- Whether a key has a value. -/
def contains (m : SortedMap κ ν) (k : κ) : Bool := (m.get? k).isSome

/-- The entries a test accepts. -/
def filter (p : κ → ν → Bool) (m : SortedMap κ ν) : SortedMap κ ν :=
  ⟨m.entries.filter fun e => p e.1 e.2, List.Pairwise.filter _ m.sorted⟩

/-- The map without the entry of `k`. -/
def erase (m : SortedMap κ ν) (k : κ) : SortedMap κ ν :=
  m.filter fun k' _ => !(compare k k' == .eq)

/-- Every value replaced by its image, which may look at the key. -/
def mapValues {μ : Type w} (f : κ → ν → μ) (m : SortedMap κ ν) : SortedMap κ μ :=
  ⟨m.entries.map fun e => (e.1, f e.1 e.2), by
    unfold Entries.Sorted
    rw [List.pairwise_map]
    exact m.sorted⟩

/-! ## Insertion -/

section Insertion

variable [Std.TransOrd κ]

/-- Puts a value under a key, in place of what was there. -/
def insert (m : SortedMap κ ν) (k : κ) (v : ν) : SortedMap κ ν :=
  ⟨Entries.insert k v m.entries, Entries.sorted_insert k v m.sorted⟩

/-- Adds entries one after the other, so that a later one wins. -/
def insertMany (m : SortedMap κ ν) (l : List (κ × ν)) : SortedMap κ ν :=
  l.foldl (fun m e => m.insert e.1 e.2) m

/-- The map of a list of entries, in which the last of two entries of one key wins. -/
def ofList (l : List (κ × ν)) : SortedMap κ ν := empty.insertMany l

/-- Replaces the value under `k` by its image, and starts from `none` if there is none. -/
def alter (m : SortedMap κ ν) (k : κ) (f : Option ν → ν) : SortedMap κ ν :=
  m.insert k (f (m.get? k))

/-- Replaces the value under `k` by its image, and does nothing if there is none. -/
def modify (m : SortedMap κ ν) (k : κ) (f : ν → ν) : SortedMap κ ν :=
  match m.get? k with
  | some v => m.insert k (f v)
  | none => m

end Insertion

/-! ## Look-ups -/

@[simp]
theorem get?_empty (k : κ) : (empty : SortedMap κ ν).get? k = none := rfl

variable [Std.LawfulEqOrd κ]

theorem ext_get? [Std.TransOrd κ] {m m' : SortedMap κ ν} (h : ∀ k, m.get? k = m'.get? k) :
    m = m' := by
  cases m with
  | mk l hl =>
    cases m' with
    | mk l' hl' => simp only [mk.injEq]; exact Entries.ext hl hl' h

theorem get?_eq_some_iff {m : SortedMap κ ν} {k : κ} {v : ν} :
    m.get? k = some v ↔ (k, v) ∈ m.toList :=
  Entries.get?_eq_some_iff m.sorted

@[simp]
theorem get?_insert_self [Std.TransOrd κ] (m : SortedMap κ ν) (k : κ) (v : ν) :
    (m.insert k v).get? k = some v :=
  Entries.get?_insert_self k v m.entries

theorem get?_insert_of_ne [Std.TransOrd κ] (m : SortedMap κ ν) {k k' : κ} (v : ν) (h : k' ≠ k) :
    (m.insert k v).get? k' = m.get? k' :=
  Entries.get?_insert_of_ne v m.entries h

theorem get?_insert [Std.TransOrd κ] [DecidableEq κ] (m : SortedMap κ ν) (k k' : κ) (v : ν) :
    (m.insert k v).get? k' = if k' = k then some v else m.get? k' := by
  by_cases h : k' = k
  · subst h; simp
  · simp [h, get?_insert_of_ne m v h]

theorem get?_filter (m : SortedMap κ ν) (p : κ → ν → Bool) (k : κ) :
    (m.filter p).get? k = (m.get? k).filter (p k) := by
  refine Option.ext fun v => ?_
  rw [get?_eq_some_iff, Option.filter_eq_some_iff, get?_eq_some_iff]
  simp [filter, toList]

theorem get?_erase [DecidableEq κ] (m : SortedMap κ ν) (k k' : κ) :
    (m.erase k).get? k' = if k' = k then none else m.get? k' := by
  rw [erase, get?_filter]
  by_cases h : k' = k
  · subst h
    simp [Std.ReflCmp.compare_self]
  · have : compare k k' ≠ .eq := fun hc => h (Std.LawfulEqCmp.eq_of_compare hc).symm
    have : (compare k k' == .eq) = false := by simpa using this
    cases m.get? k' <;> simp [h, this]

end SortedMap

end ChangeCapture
