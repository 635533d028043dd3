import ChangeCapture.Proofs.Column.Registry
import ChangeCapture.Store.Basic

/-!
# What a merge does

A merge works row by row and column by column (`StoredTable.get?_merge`).  A
row that is deleted for good goes away.  Any other row goes over the stored one
in the columns that have a kind.

In a window that is sound every value has a column, and in a table that is
sound too.  The columns of such a window are matched with those of the table
before the merge, so a value that the merge skips says nothing, and there is
none under it (`StoredTable.value?_merge`).
-/

namespace ChangeCapture

/-! ## Rows and their values -/

namespace Window

/-- The buffered value of a column of a row. -/
def value? (w : Window) (key n : String) : Option Json := (w.keyed.get? key).bind (·.get? n)

/-- Every buffered value has a column, whose name is in normal form. -/
def Sound (w : Window) : Prop :=
  ∀ key n v, w.value? key n = some v →
    Unicode.lowercase n = n ∧ n ≠ "" ∧ w.columns.Admits n v

theorem Sound.mono {w w' : Window} (h : w.Sound) (keyed : w'.keyed = w.keyed)
    (grows : w.columns.Grows w'.columns) : w'.Sound := by
  intro key n v hv
  unfold value? at hv
  rw [keyed] at hv
  obtain ⟨lower, named, admits⟩ := h key n v hv
  exact ⟨lower, named, admits.mono grows⟩

end Window

namespace StoredTable

/-- The stored value of a column of a row. -/
def value? (t : StoredTable) (key n : String) : Option Json := (t.rows.get? key).bind (·.get? n)

/-- Every column has a kind, and every stored value has a column. -/
structure Sound (t : StoredTable) : Prop where
  /-- Every column has a kind. -/
  typed : t.columns.Typed
  /-- Every stored value has a column. -/
  admits : ∀ key n v, t.value? key n = some v → ∃ c, t.columns.get? n = some c

theorem sound_empty : empty.Sound where
  typed := by
    intro c mem
    cases mem
  admits := by
    intro key n v h
    cases h

/-! ## One row -/

theorem get?_putValue (row stored : Row) (c : Column) (n : String) :
    (putValue row stored c).get? n =
      if n = c.name then Json.overlay (stored.get? n) (row.get? n) else stored.get? n := by
  unfold putValue SortedMap.contains
  by_cases same : n = c.name
  · subst same
    cases hv : row.get? c.name with
    | none => simp
    | some v =>
      cases hs : stored.get? c.name with
      | none => simp
      | some u => cases plain : v.isPlaceholder <;> simp [Json.overlay_some, plain, hs]
  · rw [if_neg same]
    split
    · rfl
    · split
      · rfl
      · exact SortedMap.get?_insert_of_ne _ _ same

/-- A row goes over a stored one in the columns that are written.  A column that is written twice
is written once. -/
theorem get?_putRow (columns : List Column) (row stored : Row) (n : String) :
    (putRow columns row stored).get? n =
      if n ∈ columns.map Column.name then Json.overlay (stored.get? n) (row.get? n)
      else stored.get? n := by
  induction columns generalizing stored with
  | nil => simp [putRow]
  | cons c rest ih =>
    have step : putRow (c :: rest) row stored = putRow rest row (putValue row stored c) := rfl
    rw [step, ih, get?_putValue, List.map_cons]
    by_cases same : n = c.name
    · by_cases again : n ∈ rest.map Column.name
      · rw [if_pos again, if_pos same, if_pos (List.mem_cons_of_mem _ again),
          Json.overlay_overlay_self]
      · rw [if_neg again, if_pos same, if_pos (same ▸ List.mem_cons_self)]
    · rw [if_neg same]
      simp [same]

theorem get?_mergeRow (softDelete : Bool) (columns : List Column) (rows : SortedMap String Row)
    (e : String × Row) (key : String) :
    (mergeRow softDelete columns rows e).get? key =
      if key = e.1 then
        if e.2.isDeleted && !softDelete then none
        else some (putRow columns e.2 ((rows.get? key).getD .empty))
      else rows.get? key := by
  simp only [mergeRow]
  split
  · rw [SortedMap.get?_erase]
  · rw [SortedMap.get?_alter]
    split
    · rename_i same
      rw [same]
    · rfl

theorem get?_foldl_mergeRow (softDelete : Bool) (columns : List Column)
    {entries : List (String × Row)} (sorted : Entries.Sorted entries) (rows : SortedMap String Row)
    (key : String) :
    (entries.foldl (mergeRow softDelete columns) rows).get? key =
      match Entries.get? key entries with
      | none => rows.get? key
      | some row =>
        if row.isDeleted && !softDelete then none
        else some (putRow columns row ((rows.get? key).getD .empty)) := by
  induction entries generalizing rows with
  | nil => rfl
  | cons e rest ih =>
    have parts := List.pairwise_cons.1 sorted
    rw [List.foldl_cons, ih parts.2, get?_mergeRow, Entries.get?_cons]
    by_cases same : key = e.1
    · subst same
      rw [Entries.get?_eq_none_of_lt parts.1]
      simp
    · simp [same]

/-! ## All rows -/

/-- A row that is deleted for good goes away, and any other row goes over the stored one. -/
theorem get?_merge (t : StoredTable) (w : Window) (key : String) :
    (t.merge w).rows.get? key =
      match w.keyed.get? key with
      | none => t.rows.get? key
      | some row =>
        if row.isDeleted && !w.settings.softDelete then none
        else some (putRow w.columns.writable row ((t.rows.get? key).getD .empty)) :=
  get?_foldl_mergeRow _ _ w.keyed.sorted t.rows key

theorem value?_merge_of_none (t : StoredTable) {w : Window} {key : String}
    (h : w.keyed.get? key = none) (n : String) : (t.merge w).value? key n = t.value? key n := by
  simp only [value?]
  rw [get?_merge, h]

theorem value?_merge_of_some (t : StoredTable) {w : Window} {key : String} {row : Row}
    (h : w.keyed.get? key = some row) (stays : (row.isDeleted && !w.settings.softDelete) = false)
    (n : String) :
    (t.merge w).value? key n =
      if n ∈ w.columns.writable.map Column.name then Json.overlay (t.value? key n) (row.get? n)
      else t.value? key n := by
  have stored : ((t.rows.get? key).getD .empty).get? n = t.value? key n := by
    simp only [value?]
    cases t.rows.get? key <;> rfl
  simp only [value?]
  rw [get?_merge, h]
  simp only [stays, Bool.false_eq_true, if_false, Option.bind_some]
  rw [get?_putRow, stored]
  rfl

/-- A merge writes values of the window only in columns that have a kind. -/
theorem value?_merge_cases {t : StoredTable} {w : Window} {key n : String} {v : Json}
    (h : (t.merge w).value? key n = some v) :
    t.value? key n = some v ∨
      w.value? key n = some v ∧ n ∈ w.columns.writable.map Column.name := by
  cases hk : w.keyed.get? key with
  | none =>
    rw [value?_merge_of_none t hk] at h
    exact .inl h
  | some row =>
    cases gone : row.isDeleted && !w.settings.softDelete with
    | true =>
      unfold value? at h
      rw [get?_merge, hk] at h
      simp [gone] at h
    | false =>
      rw [value?_merge_of_some t hk gone] at h
      split at h
      · rename_i written
        rcases Json.mem_overlay h with h | h
        · exact .inl h
        · exact .inr ⟨by rw [Window.value?, hk]; exact h, written⟩
      · exact .inl h

theorem typed_merge {t : StoredTable} (typed : t.columns.Typed) (w : Window) :
    (t.merge w).columns.Typed := by
  intro c mem
  rcases ColumnRegistry.mem_addAll mem with mem | mem
  · exact typed c mem
  · exact ColumnRegistry.typed_writable w.columns c mem

/-- A merged value has a column. -/
theorem admits_merge {t : StoredTable} {w : Window} {key n : String} {v : Json}
    (stored : ∀ u, t.value? key n = some u → ∃ c, t.columns.get? n = some c)
    (named : ∀ u, w.value? key n = some u → n ≠ "") (h : (t.merge w).value? key n = some v) :
    ∃ c, (t.merge w).columns.get? n = some c := by
  rcases value?_merge_cases h with h | ⟨h, written⟩
  · obtain ⟨c, hc⟩ := stored v h
    obtain ⟨c', hc', -⟩ := ColumnRegistry.grows_addAll t.columns w.columns.writable n c hc
    exact ⟨c', hc'⟩
  · obtain ⟨c, mem, rfl⟩ := List.mem_map.1 written
    exact ColumnRegistry.get?_addAll_of_mem mem (named v h)

/-- A sound table stays sound when a sound window is merged. -/
theorem Sound.merge {t : StoredTable} {w : Window} (ht : t.Sound) (hw : w.Sound) :
    (t.merge w).Sound where
  typed := typed_merge ht.typed w
  admits := fun key n _ => admits_merge (ht.admits key n) fun u hu => (hw key n u hu).2.1

theorem sound_adopt {t : StoredTable} {w : Window} (ht : t.Sound) (hw : w.Sound) :
    (w.adopt t.columns).Sound :=
  hw.mono rfl (ColumnRegistry.grows_adopt w.columns ht.typed)

/-- A row that is not deleted goes over the stored one.  A value that the merge skips says
nothing, and no value is stored under it. -/
theorem value?_merge {t : StoredTable} {w : Window} (typed : t.columns.Typed) {key n : String}
    (stored : ∀ u, t.value? key n = some u → ∃ c, t.columns.get? n = some c)
    (fits : ∀ v, w.value? key n = some v → Unicode.lowercase n = n ∧ w.columns.Admits n v)
    {row : Row} (h : w.keyed.get? key = some row)
    (stays : (row.isDeleted && !w.settings.softDelete) = false) :
    Json.Alike ((t.merge (w.adopt t.columns)).value? key n)
      (Json.overlay (t.value? key n) (w.value? key n)) := by
  have buffered : w.value? key n = row.get? n := by
    simp only [Window.value?]
    rw [h, Option.bind_some]
  rw [value?_merge_of_some (w := w.adopt t.columns) t h stays, buffered]
  split
  · exact .refl _
  · rename_i skipped
    have untyped : ∀ c, (w.adopt t.columns).columns.get? n = some c → c.isSkipped := by
      intro c hc
      by_contra typed
      refine skipped (List.mem_map.2 ⟨c, ?_, ColumnRegistry.name_of_get? hc⟩)
      exact List.mem_filter.2 ⟨ColumnRegistry.mem_of_get? hc, by simpa using typed⟩
    cases hv : row.get? n with
    | none =>
      rw [Json.overlay_none]
      exact .refl _
    | some v =>
      rw [hv] at buffered
      obtain ⟨lower, admits⟩ := fits v buffered
      obtain ⟨c, hc, kind⟩ := admits.mono (ColumnRegistry.grows_adopt w.columns typed)
      have full : Json.Blank (some v) := by
        rintro u ⟨⟩
        by_contra full
        simp [untyped c hc] at kind
        exact full kind
      have fresh : t.value? key n = none := by
        cases hs : t.value? key n with
        | none => rfl
        | some u =>
          obtain ⟨k, hk⟩ := stored u hs
          have skips := untyped c hc
          rw [ColumnRegistry.get?_adopt] at hc
          obtain ⟨c', hc', rfl⟩ := Option.map_eq_some_iff.1 hc
          rw [ColumnRegistry.isSkipped_adopted typed (k := k)] at skips
          · cases skips
          · rw [ColumnRegistry.name_of_get? hc', lower, hk]
      rw [fresh, Json.none_overlay]
      exact .inr ⟨Json.blank_none, full⟩

end StoredTable

end ChangeCapture
