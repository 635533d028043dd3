import ChangeCapture.Proofs.Column.Registry
import ChangeCapture.Proofs.RowEvent.Saving
import Mathlib.Data.List.Nodup

/-!
# The columns of an event

The columns of an event are clear if no two of them have the same normal form,
none is left without a name, and no hint denies a kind (`RowEvent.Clear`).  The
row that is saved then has one value for each of them (`RowEvent.get?_savedRow`),
and the visit leaves a column for each value (`RowEvent.admits_visit`).
-/

namespace ChangeCapture

/-- No hint says that a column has no kind. -/
def KindHints.Typed (hints : Option KindHints) : Prop :=
  ∀ h, hints = some h → ∀ n kind, h.get? n = some kind → kind ≠ .invalid

namespace ColumnKind

theorem ofText_ne_invalid (s : String) : ofText s ≠ .invalid := by
  simp only [ofText]
  split
  · simp
  · split <;> simp

theorem infer_ne_invalid {hints : Option KindHints} (typed : KindHints.Typed hints)
    (column : String) {v : Json} (full : v.isNull = false) :
    infer hints column v ≠ .invalid := by
  simp only [infer]
  split
  · rename_i kind h
    obtain ⟨hints', rfl, hk⟩ := Option.bind_eq_some_iff.1 h
    exact typed hints' rfl column kind hk
  · cases v with
    | null => cases full
    | string s => exact ofText_ne_invalid s
    | _ => simp [ofValue]

end ColumnKind

namespace ColumnRegistry

/-! ## Seeing one value -/

theorem get?_mark {r r' : ColumnRegistry} {name : String} {marks : ColumnMarks}
    (h : r.mark name marks = .ok r') : ∃ c, r'.get? name = some c := by
  unfold mark at h
  split at h
  · cases h
  · split at h
    · rename_i there
      obtain rfl := Except.ok.inj h
      obtain ⟨c, hc⟩ := Option.isSome_iff_exists.1 there
      refine ⟨marks.applyTo c, ?_⟩
      rw [get?_modify, if_pos rfl, hc, Option.map_some]
      exact fun _ => rfl
    · rename_i absent
      obtain rfl := Except.ok.inj h
      rw [Option.not_isSome_iff_eq_none] at absent
      have name : (marks.applyTo (.new name .invalid)).name = name := rfl
      rw [get?_append, absent, Option.none_or, if_pos name]
      exact ⟨_, rfl⟩

theorem grows_admitted {r r' : ColumnRegistry} {hints : Option KindHints} {column : String}
    {v : Json} (h : r.admit hints column v = .ok r') : r.Grows r' := by
  unfold ColumnRegistry.admit at h
  simp only at h
  split at h
  · exact grows_mark h
  · split at h
    · obtain rfl := Except.ok.inj h
      exact grows_add r _
    · obtain rfl := Except.ok.inj h
      split
      · exact grows_upgrade r _ _
      · exact .refl r

theorem admits_upgrade {r : ColumnRegistry} {name : String} {c : Column} {kind : ColumnKind}
    {v : Json} (hc : r.get? name = some c) (skipped : c.isSkipped)
    (typed : v.isBlank = false → kind ≠ .invalid) : (r.upgrade name kind).Admits name v := by
  by_cases valid : kind = .invalid
  · obtain ⟨c', hc', -⟩ := grows_upgrade r name kind name c hc
    exact ⟨c', hc', fun full => absurd valid (typed full)⟩
  · have upgrades : r.upgrades name kind := by
      simp [ColumnRegistry.upgrades, valid, hc, skipped]
    refine ⟨{ c with kind := kind }, ?_, fun _ => by simpa [Column.isSkipped] using valid⟩
    simp only [upgrade]
    rw [if_pos upgrades, get?_modify, if_pos rfl, hc, Option.map_some]
    exact fun _ => rfl

/-- A value that was seen has a column. -/
theorem admits_admitted {r r' : ColumnRegistry} {hints : Option KindHints} {column : String}
    {v : Json} (typed : KindHints.Typed hints) (named : ColumnName.normalize column ≠ "")
    (h : r.admit hints column v = .ok r') :
    r'.Admits (ColumnName.normalize column) v.collapsed := by
  unfold ColumnRegistry.admit at h
  unfold Json.collapsed
  simp only at h
  split at h
  · rename_i unavailable
    obtain ⟨c, hc⟩ := get?_mark h
    rw [if_pos unavailable]
    exact ⟨c, hc, fun full => by cases full⟩
  · rename_i available
    rw [if_neg available]
    have kind : v.isBlank = false → ColumnKind.infer hints column v ≠ .invalid := by
      intro full
      simp only [Json.isBlank, Bool.or_eq_false_iff] at full
      exact ColumnKind.infer_ne_invalid typed column full.1
    split at h
    · rename_i absent
      obtain rfl := Except.ok.inj h
      refine ⟨_, get?_add_new _ named absent, fun full => ?_⟩
      simpa [Column.isSkipped, Column.new] using kind full
    · rename_i c hc
      obtain rfl := Except.ok.inj h
      split
      · exact admits_upgrade hc ‹_› kind
      · rename_i kept
        exact ⟨c, hc, fun _ => by simpa using kept⟩

end ColumnRegistry

namespace RowEvent

/-! ## Visits -/

theorem grows_visit (hints : Option KindHints) (columns : ColumnRegistry) (row : Row)
    (entries : List (String × Json)) : columns.Grows (visit hints columns row entries).1 := by
  induction entries generalizing columns row with
  | nil => exact .refl columns
  | cons e rest ih =>
    simp only [visit]
    cases h : columns.admit hints e.1 e.2 with
    | error f => exact .refl columns
    | ok columns' => exact (ColumnRegistry.grows_admitted h).trans (ih columns' _)

/-- A visit that does not fail leaves a column for each value whose column has a name. -/
theorem admits_visit {hints : Option KindHints} (typed : KindHints.Typed hints)
    {columns : ColumnRegistry} {row row' : Row} {entries : List (String × Json)}
    (h : (visit hints columns row entries).2 = .ok row') :
    ∀ e ∈ entries, ColumnName.normalize e.1 ≠ "" →
      (visit hints columns row entries).1.Admits (ColumnName.normalize e.1) e.2.collapsed := by
  induction entries generalizing columns row with
  | nil =>
    intro e mem
    cases mem
  | cons first rest ih =>
    simp only [visit] at h ⊢
    cases hf : columns.admit hints first.1 first.2 with
    | error f =>
      rw [hf] at h
      cases h
    | ok columns' =>
      rw [hf] at h
      intro e mem named
      rcases List.mem_cons.1 mem with rfl | mem
      · have admits := ColumnRegistry.admits_admitted typed named hf
        exact admits.mono (grows_visit hints columns' _ rest)
      · exact ih h e mem named

/-! ## Names that stay apart -/

/-- The names of data are distinct in normal form, and none of them is empty. -/
structure NamedApart (data : Row) : Prop where
  /-- The names are distinct in normal form. -/
  distinct : (data.keys.map ColumnName.normalize).Nodup
  /-- No name is empty in normal form. -/
  named : ∀ n ∈ data.keys, ColumnName.normalize n ≠ ""

namespace NamedApart

variable {data : Row}

theorem inj (h : NamedApart data) {n n' : String} (mem : n ∈ data.keys) (mem' : n' ∈ data.keys)
    (same : ColumnName.normalize n = ColumnName.normalize n') : n = n' :=
  List.inj_on_of_nodup_map h.distinct mem mem' same

theorem distinct_entries (h : NamedApart data) :
    (data.toList.map fun v => ColumnName.normalize v.1).Nodup := by
  have := h.distinct
  rwa [SortedMap.keys, List.map_map] at this

theorem of_inj (named : ∀ n ∈ data.keys, ColumnName.normalize n ≠ "")
    (inj : ∀ n ∈ data.keys, ∀ n' ∈ data.keys,
      ColumnName.normalize n = ColumnName.normalize n' → n = n') : NamedApart data :=
  ⟨data.nodup_keys.map_on inj, named⟩

/-- A column is found by the normal form of its name. -/
theorem find?_eq_some_iff (h : NamedApart data) {p n : String} {v : Json} :
    (data.toList.find? fun x => ColumnName.normalize x.1 == p) = some (n, v) ↔
      data.get? n = some v ∧ ColumnName.normalize n = p := by
  constructor
  · intro found
    have same := List.find?_some found
    exact ⟨SortedMap.get?_eq_some_iff.2 (List.mem_of_find?_eq_some found), eq_of_beq same⟩
  · rintro ⟨hv, same⟩
    have mem : (n, v) ∈ data.toList := SortedMap.get?_eq_some_iff.1 hv
    cases found : data.toList.find? fun x => ColumnName.normalize x.1 == p with
    | none =>
      have absent := List.find?_eq_none.1 found _ mem
      exact absurd (beq_iff_eq.2 same) absent
    | some x =>
      have same' := List.find?_some found
      rw [List.inj_on_of_nodup_map h.distinct_entries (List.mem_of_find?_eq_some found) mem
        ((eq_of_beq same').trans same.symm)]

end NamedApart

/-! ## Values of an event -/

/-- The columns of an event have distinct names in normal form, none of them empty, and no hint
denies a kind. -/
structure Clear (e : RowEvent) : Prop where
  /-- The names are distinct in normal form. -/
  distinct : (e.data.keys.map ColumnName.normalize).Nodup
  /-- No name is empty in normal form. -/
  named : ∀ n ∈ e.data.keys, ColumnName.normalize n ≠ ""
  /-- No hint denies a kind. -/
  typed : KindHints.Typed e.hints

/-- The value that an event has for a column, by the normal form of its name. -/
def value? (e : RowEvent) (n : String) : Option Json :=
  (e.data.toList.find? fun v => ColumnName.normalize v.1 == n).map Prod.snd

theorem get?_foldl_put {entries : List (String × Json)}
    (distinct : (entries.map fun v => ColumnName.normalize v.1).Nodup) (row : Row) (n : String) :
    (entries.foldl put row).get? n =
      ((entries.find? fun v => ColumnName.normalize v.1 == n).map fun v => v.2.collapsed).or
        (row.get? n) := by
  induction entries generalizing row with
  | nil => rfl
  | cons v rest ih =>
    rw [List.map_cons, List.nodup_cons] at distinct
    rw [List.foldl_cons, ih distinct.2, put, SortedMap.get?_insert]
    by_cases same : n = ColumnName.normalize v.1
    · have once : (rest.find? fun u => ColumnName.normalize u.1 == n) = none := by
        rw [List.find?_eq_none]
        intro u mem again
        refine distinct.1 (List.mem_map.2 ⟨u, mem, ?_⟩)
        rw [eq_of_beq again, same]
      rw [once, if_pos same, List.find?_cons_of_pos (by simp [same])]
      rfl
    · have other : ¬ (ColumnName.normalize v.1 == n) = true := by
        rw [beq_iff_eq]
        exact fun h => same h.symm
      rw [if_neg same, List.find?_cons_of_neg (by simpa using other)]

variable {e : RowEvent}

theorem Clear.apart (h : e.Clear) : NamedApart e.data := ⟨h.distinct, h.named⟩

/-- The row that is saved has the values of the event, placeholders collapsed. -/
theorem get?_savedRow (h : e.Clear) (n : String) :
    e.savedRow.get? n = (e.value? n).map Json.collapsed := by
  simp only [savedRow, value?]
  rw [get?_foldl_put h.apart.distinct_entries, SortedMap.get?_empty, Option.or_none, Option.map_map]
  rfl

/-- An event has the values of its data. -/
theorem value?_normalize (h : e.Clear) {column : String} {v : Json}
    (hv : e.data.get? column = some v) : e.value? (ColumnName.normalize column) = some v := by
  rw [value?, h.apart.find?_eq_some_iff.2 ⟨hv, rfl⟩, Option.map_some]

theorem mem_of_get?_foldl_put {entries : List (String × Json)} {row : Row} {n : String} {v : Json}
    (h : (entries.foldl put row).get? n = some v) :
    (∃ u ∈ entries, ColumnName.normalize u.1 = n ∧ u.2.collapsed = v) ∨ row.get? n = some v := by
  induction entries generalizing row with
  | nil => exact .inr h
  | cons first rest ih =>
    rcases ih h with ⟨u, mem, same⟩ | h
    · exact .inl ⟨u, List.mem_cons_of_mem first mem, same⟩
    · rw [put, SortedMap.get?_insert] at h
      split at h
      · rename_i here
        exact .inl ⟨first, List.mem_cons_self, here.symm, Option.some.inj h⟩
      · exact .inr h

/-- A value of the row that is saved comes from the data of the event. -/
theorem mem_of_savedRow {n : String} {v : Json} (h : e.savedRow.get? n = some v) :
    ∃ u ∈ e.data.toList, ColumnName.normalize u.1 = n ∧ u.2.collapsed = v := by
  rcases mem_of_get?_foldl_put h with found | none
  · exact found
  · cases none

/-- The row that is saved has no value without a name. -/
theorem Clear.named_savedRow (h : e.Clear) {n : String} {v : Json}
    (hv : e.savedRow.get? n = some v) : n ≠ "" := by
  obtain ⟨u, mem, rfl, -⟩ := mem_of_savedRow hv
  refine h.named u.1 ?_
  simp only [SortedMap.keys]
  exact List.mem_map_of_mem mem

/-- A visit that does not fail leaves a column, whose name is in normal form, for each value of
the row that has a name. -/
theorem admits_savedRow (typed : KindHints.Typed e.hints) {columns : ColumnRegistry} {row : Row}
    (visits : (visit e.hints columns .empty e.data.toList).2 = .ok row) {n : String} {v : Json}
    (named : n ≠ "") (hv : e.savedRow.get? n = some v) :
    Unicode.lowercase n = n ∧ (e.visited columns).Admits n v := by
  obtain ⟨u, mem, rfl, rfl⟩ := mem_of_savedRow hv
  exact ⟨ColumnName.lowercase_normalize u.1, admits_visit typed visits u mem named⟩

end RowEvent

end ChangeCapture
