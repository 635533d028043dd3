import ChangeCapture.Proofs.Store.Tracking
import Mathlib.Data.List.Dedup

/-!
# Rows of a window

What a window of replication mode holds after rows were saved into it one after
the other.  A key has a row if one was saved under it, and the row has the columns
of all of them.  The value of a column is the last one that was saved for it, the
placeholder aside (`Window.keepsLast_insertAll`).

One saved row is laid over what is there (`Window.value?_insert`), so the values
that were saved for a column are laid over each other in their order, and of these
the last one stands (`Json.foldl_overlay`).
-/

namespace ChangeCapture

/-! ## Values one after the other -/

namespace Json

theorem eq_of_isPlaceholder {v : Json} (h : v.isPlaceholder) : v = .string unavailable := by
  cases v with
  | string s => rw [eq_of_beq h]
  | _ => cases h

/-- The last of some values that is not the placeholder. -/
def lastReal? (vs : List Json) : Option Json := (vs.filter fun v => !v.isPlaceholder).getLast?

/-- What stands of values that are laid over each other: the last one that is not the placeholder,
and the placeholder if there is no other value. -/
def standing? (vs : List Json) : Option Json :=
  if vs.isEmpty then none else some ((lastReal? vs).getD (.string unavailable))

theorem standing?_of_ne_nil {vs : List Json} (ne : vs ≠ []) :
    standing? vs = some ((lastReal? vs).getD (.string unavailable)) :=
  if_neg (by simpa using ne)

theorem lastReal?_concat (vs : List Json) (v : Json) :
    lastReal? (vs ++ [v]) = if v.isPlaceholder then lastReal? vs else some v := by
  unfold lastReal?
  cases plain : v.isPlaceholder <;> simp [List.filter_append, plain]

theorem standing?_concat (vs : List Json) (v : Json) :
    standing? (vs ++ [v]) = overlay (standing? vs) (some v) := by
  rw [standing?_of_ne_nil (List.append_ne_nil_of_right_ne_nil vs (List.cons_ne_nil v [])),
    lastReal?_concat]
  cases plain : v.isPlaceholder with
  | false => rw [overlay_plain _ plain, if_neg Bool.false_ne_true, Option.getD_some]
  | true =>
    rw [if_pos rfl]
    cases vs with
    | nil => rw [eq_of_isPlaceholder plain]; rfl
    | cons u rest =>
      rw [standing?_of_ne_nil (List.cons_ne_nil u rest), overlay_some, if_pos plain]

theorem foldl_overlay (vs : List Json) :
    vs.foldl (fun x v => overlay x (some v)) none = standing? vs := by
  induction vs using List.reverseRecOn with
  | nil => rfl
  | append_singleton vs v ih =>
    rw [List.foldl_append, List.foldl_cons, List.foldl_nil, ih, standing?_concat]

/-- A value other than the placeholder is followed by a last one. -/
theorem lastReal?_of_mem {vs : List Json} {v : Json} (mem : v ∈ vs)
    (real : v.isPlaceholder = false) :
    ∃ u, lastReal? vs = some u ∧ u.isPlaceholder = false := by
  have isIn : v ∈ vs.filter fun v => !v.isPlaceholder := List.mem_filter.2 ⟨mem, by simp [real]⟩
  obtain ⟨u, last⟩ : ∃ u, lastReal? vs = some u :=
    Option.isSome_iff_exists.1 (List.getLast?_isSome.2 (List.ne_nil_of_mem isIn))
  refine ⟨u, last, ?_⟩
  simpa using (List.mem_filter.1 (List.mem_of_getLast? last)).2

theorem exists_standing?_iff {vs : List Json} : (∃ v, standing? vs = some v) ↔ vs ≠ [] := by
  constructor
  · rintro ⟨v, h⟩ rfl
    cases h
  · exact fun ne => ⟨_, standing?_of_ne_nil ne⟩

end Json

/-! ## Rows one after the other -/

/-- A row that is saved under a key. -/
structure Insertion where
  /-- The key. -/
  key : String
  /-- The row. -/
  row : Row
  /-- Whether the row is deleted. -/
  deleted : Bool

/-- The values that rows of a key have for a column, in order. -/
def Insertion.valuesOf (is : List Insertion) (key column : String) : List Json :=
  (is.filter (·.key == key)).filterMap (·.row.get? column)

theorem Insertion.mem_valuesOf {is : List Insertion} {key column : String} {v : Json} :
    v ∈ valuesOf is key column ↔ ∃ i ∈ is, i.key = key ∧ i.row.get? column = some v := by
  simp only [valuesOf, List.mem_filterMap, List.mem_filter, beq_iff_eq, and_assoc]

theorem Insertion.valuesOf_ne_nil_iff {is : List Insertion} {key column : String} :
    valuesOf is key column ≠ [] ↔ ∃ i ∈ is, i.key = key ∧ i.row.contains column := by
  rw [← List.length_pos_iff, List.length_pos_iff_exists_mem]
  simp only [mem_valuesOf, SortedMap.contains, Option.isSome_iff_exists]
  constructor
  · rintro ⟨v, i, mem, same, carried⟩
    exact ⟨i, mem, same, v, carried⟩
  · rintro ⟨i, mem, same, v, carried⟩
    exact ⟨v, i, mem, same, carried⟩

namespace Window

open Tracks (layer get?_layer)

/-- Saves rows one after the other. -/
def insertAll (w : Window) (is : List Insertion) : Window :=
  is.foldl (fun w i => w.insert i.key i.row i.deleted) w

theorem mode_insert (w : Window) (key : String) (row : Row) (deleted : Bool) :
    (w.insert key row deleted).mode = w.mode := by
  unfold insert
  split <;> rfl

theorem insertAll_concat (w : Window) (is : List Insertion) (i : Insertion) :
    w.insertAll (is ++ [i]) = (w.insertAll is).insert i.key i.row i.deleted := by
  simp only [insertAll, List.foldl_append, List.foldl_cons, List.foldl_nil]

theorem insertAll_append (w : Window) (is more : List Insertion) :
    w.insertAll (is ++ more) = (w.insertAll is).insertAll more :=
  List.foldl_append ..

theorem mode_insertAll (w : Window) (is : List Insertion) : (w.insertAll is).mode = w.mode := by
  induction is using List.reverseRecOn with
  | nil => rfl
  | append_singleton is i ih => rw [insertAll_concat, mode_insert, ih]

section Keyed

variable {w : Window}

theorem keyed_insert (mode : w.mode = .replication) (key : String) (row : Row) (deleted : Bool) :
    (w.insert key row deleted).keyed = w.keyed.insert key (layer (w.keyed.get? key) row) := by
  unfold insert
  rw [mode]
  rfl

theorem get?_keyed_insert (mode : w.mode = .replication) (key k : String) (row : Row)
    (deleted : Bool) :
    (w.insert key row deleted).keyed.get? k =
      if k = key then some (layer (w.keyed.get? key) row) else w.keyed.get? k := by
  rw [keyed_insert mode, SortedMap.get?_insert]

/-- A row that is saved is laid over the row of its key. -/
theorem value?_insert (mode : w.mode = .replication) (key k column : String) (row : Row)
    (deleted : Bool) :
    (w.insert key row deleted).value? k column =
      if k = key then Json.overlay (w.value? k column) (row.get? column)
      else w.value? k column := by
  simp only [value?]
  rw [get?_keyed_insert mode]
  split
  · rename_i same
    rw [same, Option.bind_some, get?_layer]
  · rfl

/-- The values that were saved for a column are laid over what was there. -/
theorem value?_insertAll (mode : w.mode = .replication) (is : List Insertion)
    (key column : String) :
    (w.insertAll is).value? key column =
      (Insertion.valuesOf is key column).foldl (fun x v => Json.overlay x (some v))
        (w.value? key column) := by
  induction is using List.reverseRecOn with
  | nil => rfl
  | append_singleton is i ih =>
    rw [insertAll_concat, value?_insert ((mode_insertAll w is).trans mode), ih]
    unfold Insertion.valuesOf
    rw [List.filter_append, List.filterMap_append, List.foldl_append]
    by_cases here : i.key = key
    · cases carried : i.row.get? column <;> simp [here, carried]
    · simp [here, Ne.symm here]

theorem mem_keys_insertAll (mode : w.mode = .replication) {is : List Insertion} {key : String} :
    key ∈ (w.insertAll is).keyed.keys ↔ key ∈ w.keyed.keys ∨ ∃ i ∈ is, i.key = key := by
  induction is using List.reverseRecOn with
  | nil => simp [insertAll]
  | append_singleton is i ih =>
    rw [SortedMap.mem_keys_iff, SortedMap.mem_keys_iff] at ih ⊢
    simp only [insertAll_concat, get?_keyed_insert ((mode_insertAll w is).trans mode)]
    by_cases here : key = i.key
    · simp [here]
    · simp [here, Ne.symm here, ih]

theorem rowCount_eq_keys (mode : w.mode = .replication) :
    w.rowCount = w.keyed.keys.length := by
  simp only [rowCount, rows]
  rw [mode]
  simp only [SortedMap.values, SortedMap.keys]
  rw [List.length_map, List.length_map]

end Keyed

/-! ## What stands in the end -/

/-- The rows of the window are what stands of the rows that were saved. -/
structure KeepsLast (w : Window) (is : List Insertion) : Prop where
  /-- A key has a row if and only if one was saved under it. -/
  keys : ∀ key, w.keyed.contains key ↔ ∃ i ∈ is, i.key = key
  /-- There is one row for each key. -/
  rowCount : w.rowCount = (is.map Insertion.key).dedup.length
  /-- A row has a column if and only if one of the rows saved under its key has it. -/
  columns : ∀ key column, (∃ v, w.value? key column = some v) ↔
    ∃ i ∈ is, i.key = key ∧ i.row.contains column
  /-- The value of a column is the last one that is not the placeholder, and the placeholder if
  no other value was saved. -/
  values : ∀ key column v, w.value? key column = some v →
    v = (Json.lastReal? (Insertion.valuesOf is key column)).getD (.string Json.unavailable)
  /-- A row that is saved leaves the rows of other keys as they are. -/
  others : ∀ (i : Insertion) (key : String), key ≠ i.key →
    (w.insert i.key i.row i.deleted).keyed.get? key = w.keyed.get? key
  /-- Once another value than the placeholder was saved for a column, the placeholder never stands
  there, whatever is saved after it. -/
  settled : ∀ i ∈ is, ∀ column v, i.row.get? column = some v → v.isPlaceholder = false →
    ∀ more, ∃ u, (w.insertAll more).value? i.key column = some u ∧ u.isPlaceholder = false

theorem value?_insertAll_new (tableId : TableId) (name : String) (columns : ColumnRegistry)
    (primaryKeys : List String) (s : TopicSettings) (is : List Insertion) (key column : String) :
    ((new tableId name .replication columns primaryKeys s).insertAll is).value? key column =
      Json.standing? (Insertion.valuesOf is key column) := by
  rw [value?_insertAll rfl, ← Json.foldl_overlay]
  rfl

/-- Of the rows that are saved into a window one after the other, the last value of each column
stands, the placeholder aside. -/
theorem keepsLast_insertAll (tableId : TableId) (name : String) (columns : ColumnRegistry)
    (primaryKeys : List String) (s : TopicSettings) (is : List Insertion) :
    ((new tableId name .replication columns primaryKeys s).insertAll is).KeepsLast is := by
  have mode := mode_insertAll (new tableId name .replication columns primaryKeys s) is
  have keys : ∀ key,
      key ∈ ((new tableId name .replication columns primaryKeys s).insertAll is).keyed.keys ↔
        ∃ i ∈ is, i.key = key := by
    intro key
    rw [mem_keys_insertAll rfl]
    exact or_iff_right List.not_mem_nil
  have value := value?_insertAll_new tableId name columns primaryKeys s
  refine ⟨?_, ?_, ?_, ?_, ?_, ?_⟩
  · intro key
    rw [← keys, SortedMap.mem_keys_iff]
    exact Option.isSome_iff_exists
  · have same : ((new tableId name .replication columns primaryKeys s).insertAll
        is).keyed.keys.Perm (is.map Insertion.key).dedup := by
      refine (List.perm_ext_iff_of_nodup (SortedMap.nodup_keys _) (List.nodup_dedup _)).2 ?_
      intro key
      rw [keys, List.mem_dedup, List.mem_map]
    rw [rowCount_eq_keys mode, same.length_eq]
  · intro key column
    rw [value, Json.exists_standing?_iff, Insertion.valuesOf_ne_nil_iff]
  · intro key column v h
    rw [value] at h
    have ne := Json.exists_standing?_iff.1 ⟨v, h⟩
    exact Option.some.inj (h.symm.trans (Json.standing?_of_ne_nil ne))
  · intro i key ne
    rw [get?_keyed_insert mode, if_neg ne]
  · intro i mem column v carried real more
    have isIn : v ∈ Insertion.valuesOf (is ++ more) i.key column :=
      Insertion.mem_valuesOf.2 ⟨i, List.mem_append_left more mem, rfl, carried⟩
    obtain ⟨u, last, plain⟩ := Json.lastReal?_of_mem isIn real
    refine ⟨u, ?_, plain⟩
    rw [← insertAll_append, value, Json.standing?_of_ne_nil (List.ne_nil_of_mem isIn), last,
      Option.getD_some]

end Window

end ChangeCapture
