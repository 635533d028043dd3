import ChangeCapture.Debezium.Envelope
import ChangeCapture.Proofs.Column.Name
import ChangeCapture.Proofs.RowEvent.Columns
import ChangeCapture.Proofs.RowEvent.Shaping

/-!
# What a message says of a row

The key of a message names key columns in normal form, with their values as they
stand in it (`Debezium.get?_keyColumns`).  The row after the change has the names
that the source gives, and values in the form that their fields stand for
(`Debezium.get?_convertRow`).
-/

namespace ChangeCapture.Debezium

/-- The fields that a schema lists for the row after the change. -/
def imageFields (schema : Option (List Field)) : List Field := (schema.bind rowFields?).getD []

/-- A message value that is read reports a known operation, and a change with the row in the form
that its fields stand for. -/
theorem eq_of_changeOf {schema : Option (List Field)} {payload : Payload} {c : Change}
    (h : changeOf schema payload = .ok c) :
    ∃ operation, Operation.ofCode? payload.operation = some operation ∧
      c = ⟨payload.table, operation, .ofMillis payload.millis,
        (payload.after.filter fun r => !r.isEmpty).map (convertRow (imageFields schema)),
        (schema.bind rowFields?).map Field.hints, (schema.bind rowFields?).map Field.columns⟩ := by
  unfold changeOf at h
  split at h
  · cases h
  · rename_i operation code
    split at h
    · cases h
    · split at h
      · cases h
      · dsimp only at h
        split at h
        · cases h
        · exact ⟨operation, code, (Except.ok.inj h).symm⟩

/-! ## Hints -/

/-- The kind that is a hint is a kind. -/
theorem kind_ne_invalid_of_isHint {f : Field} (h : f.isHint) : f.kind ≠ .invalid := by
  simp only [Field.isHint, Bool.or_eq_true, Bool.and_eq_true, bne_iff_ne] at h
  rcases h with text | ⟨-, typed⟩
  · simp only [Field.isText, Bool.and_eq_true, Option.isNone_iff_eq_none, beq_iff_eq] at text
    simp only [Field.kind, text.1, text.2]
    decide
  · exact typed

/-- No hint that a message gives denies a kind. -/
theorem typed_hints {schema : Option (List Field)} {payload : Payload} {c : Change}
    (h : changeOf schema payload = .ok c) : KindHints.Typed c.hints := by
  obtain ⟨operation, -, rfl⟩ := eq_of_changeOf h
  intro hints hh n kind hk
  obtain ⟨fs, -, rfl⟩ := Option.map_eq_some_iff.1 hh
  obtain ⟨f, mem, same⟩ := List.mem_map.1 (SortedMap.mem_of_get?_ofList hk)
  obtain ⟨-, rfl⟩ := Prod.mk.inj same
  exact kind_ne_invalid_of_isHint (List.mem_filter.1 mem).2

/-! ## Keys -/

/-- The key columns stand under the normal forms of the names in the key. -/
theorem mem_of_get?_keyColumns {fields : List (String × Json)} {p : String} {v : Json}
    (h : (keyColumns fields).get? p = some v) :
    ∃ r, (r, v) ∈ fields ∧ r ≠ tableField ∧ ColumnName.normalize r = p := by
  obtain ⟨⟨r, u⟩, mem, same⟩ := List.mem_map.1 (SortedMap.mem_of_get?_ofList h)
  obtain ⟨rfl, rfl⟩ := Prod.mk.inj same
  obtain ⟨mem, other⟩ := List.mem_filter.1 mem
  exact ⟨r, mem, by simpa using other, rfl⟩

/-- If no other value of the key has a name with the same normal form, the value stands under it. -/
theorem get?_keyColumns {fields : List (String × Json)} {r : String} {v : Json}
    (mem : (r, v) ∈ fields) (other : r ≠ tableField)
    (unique : ∀ r' u, (r', u) ∈ fields → r' ≠ tableField →
      ColumnName.normalize r' = ColumnName.normalize r → u = v) :
    (keyColumns fields).get? (ColumnName.normalize r) = some v := by
  refine SortedMap.get?_ofList_of_unique
    (List.mem_map.2 ⟨(r, v), List.mem_filter.2 ⟨mem, by simpa using other⟩, rfl⟩) ?_
  intro u listed
  obtain ⟨⟨r', u'⟩, kept, same⟩ := List.mem_map.1 listed
  obtain ⟨mem', other'⟩ := List.mem_filter.1 kept
  obtain ⟨alike, rfl⟩ := Prod.mk.inj same
  exact unique r' u' mem' (by simpa using other') alike

/-- The names of key columns are the normal forms of the names in the key. -/
theorem mem_keys_keyColumns {fields : List (String × Json)} {p : String} :
    p ∈ (keyColumns fields).keys ↔
      ∃ n v, (n, v) ∈ fields ∧ n ≠ tableField ∧ ColumnName.normalize n = p := by
  rw [SortedMap.mem_keys_iff]
  constructor
  · rintro ⟨v, hv⟩
    obtain ⟨n, mem, other, same⟩ := mem_of_get?_keyColumns hv
    exact ⟨n, v, mem, other, same⟩
  · rintro ⟨n, v, mem, other, rfl⟩
    exact SortedMap.get?_insertMany_isSome (.inl ⟨v, List.mem_map.2
      ⟨(n, v), List.mem_filter.2 ⟨mem, by simpa using other⟩, rfl⟩⟩)

/-- A message key in either format names key columns. -/
theorem keyColumns_of_readKey {format : KeyFormat} {bytes : ByteArray} {key : Row}
    (h : readKey format bytes = .ok key) : ∃ fields, key = keyColumns fields := by
  unfold readKey at h
  split at h
  · cases h
  · cases format with
    | json =>
      simp only at h
      split at h
      · cases h
      · unfold jsonKey at h
        split at h
        · cases h
        · split at h
          · exact ⟨_, (Except.ok.inj h).symm⟩
          · exact ⟨_, (Except.ok.inj h).symm⟩
          · cases h
        · cases h
    | string =>
      simp only at h
      split at h
      · cases h
      · unfold bracedKey at h
        split at h
        · cases h
        · split at h
          · cases h
          · obtain ⟨pairs, -, h⟩ := Outcome.bind_eq_ok.1 h
            exact ⟨_, (Except.ok.inj h).symm⟩

/-- The names in a message key that was read are in normal form. -/
theorem normalize_of_readKey {format : KeyFormat} {bytes : ByteArray} {key : Row}
    (read : readKey format bytes = .ok key) {p : String} (mem : p ∈ key.keys) :
    ColumnName.normalize p = p := by
  obtain ⟨fields, rfl⟩ := keyColumns_of_readKey read
  obtain ⟨n, _, -, -, rfl⟩ := mem_keys_keyColumns.1 mem
  exact ColumnName.normalize_normalize n

/-! ## Rows -/

/-- The value of a column in the form that the fields of its name stand for. -/
def convertAs (fs : List Field) (n : String) (v : Json) : Json :=
  fs.foldl (fun v f => if f.name = n then convert f v else v) v

theorem convertAs_cons (f : Field) (rest : List Field) (n : String) (v : Json) :
    convertAs (f :: rest) n v = convertAs rest n (if f.name = n then convert f v else v) := rfl

/-- Conversion works column by column. -/
theorem get?_convertRow (fs : List Field) (r : Row) (n : String) :
    (convertRow fs r).get? n = (r.get? n).map (convertAs fs n) := by
  simp only [convertRow]
  induction fs generalizing r with
  | nil => exact Option.map_id'.symm
  | cons f rest ih =>
    rw [List.foldl_cons, ih, SortedMap.get?_modify]
    by_cases same : n = f.name
    · subst same
      cases r.get? f.name <;> simp [convertAs_cons]
    · cases r.get? n <;> simp [convertAs_cons, same, Ne.symm same]

/-- What a change is made from. -/
theorem changeOf_parts {schema : Option (List Field)} {payload : Payload} {c : Change}
    (h : changeOf schema payload = .ok c) :
    c.table = payload.table ∧
      c.after = (payload.after.filter fun r => !r.isEmpty).map
        (convertRow (imageFields schema)) := by
  obtain ⟨operation, -, rfl⟩ := eq_of_changeOf h
  exact ⟨rfl, rfl⟩

theorem isEmpty_convertRow (fs : List Field) (r : Row) :
    (convertRow fs r).isEmpty = r.isEmpty := by
  rw [Bool.eq_iff_iff, SortedMap.isEmpty_iff, SortedMap.isEmpty_iff]
  refine forall_congr' fun n => ?_
  rw [get?_convertRow, Option.map_eq_none_iff]

/-- A change deletes its row if the message has no row after the change, or an empty one. -/
theorem isDelete_of_changeOf {schema : Option (List Field)} {payload : Payload} {c : Change}
    (h : changeOf schema payload = .ok c) : c.isDelete = payload.after.all SortedMap.isEmpty := by
  rw [Change.isDelete, (changeOf_parts h).2]
  cases payload.after with
  | none => rfl
  | some row =>
    rw [Option.all_some]
    cases empty : row.isEmpty with
    | true =>
      rw [Option.filter_some_neg (by rw [empty]; rfl)]
      rfl
    | false =>
      rw [Option.filter_some_pos (by rw [empty]; rfl), Option.map_some, Option.all_some,
        isEmpty_convertRow, empty]

/-- A change with a row that is not empty keeps the row, converted. -/
theorem after_of_filled {schema : Option (List Field)} {payload : Payload} {c : Change}
    (h : changeOf schema payload = .ok c) {row : Row} (after : payload.after = some row)
    (filled : row.isEmpty = false) :
    c.isDelete = false ∧ c.after = some (convertRow (imageFields schema) row) := by
  rw [isDelete_of_changeOf h, (changeOf_parts h).2, after]
  exact ⟨filled, by simp [filled]⟩

/-! ## An upsert and a delete -/

/-- An upsert and a delete of the row of one message key: after the upsert the row has the columns
of the key with the values of the key, and after the delete there is none. -/
structure UpsertThenDelete (fields : List (String × Json)) (schema schema' : Option (List Field))
    (payload payload' : Payload) (c c' : Change) : Prop where
  /-- The upsert. -/
  upsert : changeOf schema payload = .ok c
  /-- The delete. -/
  delete : changeOf schema' payload' = .ok c'
  /-- They are about one table. -/
  table : payload'.table = payload.table
  /-- The row after the upsert has the values of the key. -/
  image : ∃ row, payload.after = some row ∧ row.isEmpty = false ∧
    ∀ r v, (r, v) ∈ fields → r ≠ tableField → row.get? r = some v
  /-- There is no row after the delete. -/
  gone : payload'.after.all SortedMap.isEmpty

namespace UpsertThenDelete

variable {fields : List (String × Json)} {schema schema' : Option (List Field)}
  {payload payload' : Payload} {c c' : Change}

theorem table_eq (h : UpsertThenDelete fields schema schema' payload payload' c c') :
    c'.table = c.table := by
  rw [(changeOf_parts h.delete).1, (changeOf_parts h.upsert).1, h.table]

theorem isDelete_delete (h : UpsertThenDelete fields schema schema' payload payload' c c') :
    c'.isDelete := by
  rw [isDelete_of_changeOf h.delete]
  exact h.gone

/-- The row after the upsert, converted. -/
theorem image_upsert (h : UpsertThenDelete fields schema schema' payload payload' c c') :
    c.isDelete = false ∧
      ∀ r v, (r, v) ∈ fields → r ≠ tableField →
        (c.after.getD .empty).get? r = some (convertAs (imageFields schema) r v) := by
  obtain ⟨row, after, filled, carries⟩ := h.image
  obtain ⟨upserts, converted⟩ := after_of_filled h.upsert after filled
  refine ⟨upserts, fun r v mem other => ?_⟩
  rw [converted, Option.getD_some, get?_convertRow, carries r v mem other, Option.map_some]

/-- The key has one value for each name. -/
theorem unique (h : UpsertThenDelete fields schema schema' payload payload' c c') {r : String}
    {v v' : Json} (mem : (r, v) ∈ fields) (mem' : (r, v') ∈ fields) (other : r ≠ tableField) :
    v' = v := by
  obtain ⟨row, -, -, carries⟩ := h.image
  exact Option.some.inj ((carries r v' mem' other).symm.trans (carries r v mem other))

end UpsertThenDelete

end ChangeCapture.Debezium
