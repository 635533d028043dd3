import ChangeCapture.Proofs.RowEvent.Concealing
import ChangeCapture.Proofs.RowEvent.Described

/-!
# Columns that are announced and columns that are written

The lists of a topic filter the columns that a message declares, and the row.  Of the
columns they see the names in normal form, of the row those that the source gives.  So a
column that is dropped from the rows may still be announced to the destination, and one
that is kept may be announced without its kind.

A field of an upsert is treated alike by both filters if and only if they decide the same
of its name and of the normal form of it (`RowEvent.filtersAlike_iff`).
-/

namespace ChangeCapture

/-! ## The filter of the row -/

/-- A column that has a value and is only ever written has a value in the end. -/
theorem Row.get?_edit_isSome {edits : List (String × Option Json)} {r : Row} {n : String}
    (there : (r.get? n).isSome) (writes : ∀ v, (n, v) ∈ edits → v.isSome) :
    ((r.edit edits).get? n).isSome := by
  induction edits generalizing r with
  | nil => exact there
  | cons first rest ih =>
    refine ih ?_ fun v mem => writes v (List.mem_cons_of_mem first mem)
    rw [get?_edited]
    split
    · rename_i here
      exact writes first.2 (here ▸ List.mem_cons_self)
    · exact there

namespace TopicSettings

/-- A column that is not static is kept in the row if it would be announced. -/
theorem keeps_eq_announces {s : TopicSettings} {n : String} (other : n ∉ s.staticNames) :
    s.keeps n = s.announces n := by
  simp [keeps, announces, keptNames, other]

/-- The columns that go away when a row is appended. -/
def droppedNames : Mode → List String
  | .replication => []
  | .history => [SystemColumn.deleted, SystemColumn.onlySetDelete]

/-- A column that a row has and that is not static still has a value after the topic wrote into
the row, unless it goes away. -/
theorem get?_edits_isSome {s : TopicSettings} {row : Row} {n : String}
    (there : (row.get? n).isSome) (other : n ∉ s.staticNames) (mode : Mode) (c : Change)
    (now : Instant) :
    ((row.edit (s.edits mode c now)).get? n).isSome ↔ n ∉ droppedNames mode := by
  have static : n ∉ (s.staticColumns.map fun x => (x.name, some (Json.string x.value))).map
      Prod.fst := by
    rw [List.map_map]
    exact other
  rw [edits, Row.edit_append, Row.get?_edit_of_notMem static]
  constructor
  · intro kept dropped
    cases mode with
    | replication => cases dropped
    | history =>
      rw [systemEdits, Row.edit_append] at kept
      generalize row.edit _ = written at kept
      simp only [droppedNames, List.mem_cons, List.not_mem_nil, or_false] at dropped
      rcases dropped with rfl | rfl <;> simp [Row.edit, SortedMap.get?_erase] at kept
  · intro stays
    refine Row.get?_edit_isSome there fun v mem => ?_
    cases mode with
    | replication =>
      simp only [systemEdits] at mem
      aesop
    | history =>
      simp only [droppedNames, List.mem_cons, List.not_mem_nil, or_false, not_or] at stays
      simp only [systemEdits] at mem
      aesop

end TopicSettings

/-! ## Fields -/

namespace Debezium

/-- The columns of a change are those of the fields that its schema lists. -/
theorem columns_of_changeOf {schema : Option (List Field)} {payload : Payload} {c : Change}
    (h : changeOf schema payload = .ok c) :
    c.columns.getD .empty = Field.columns (imageFields schema) := by
  obtain ⟨operation, -, rfl⟩ := eq_of_changeOf h
  unfold imageFields
  cases schema.bind rowFields? <;> rfl

/-- A column that fields declare has the kind of one of them. -/
theorem get?_columns_eq_some {fs : List Field} {n : String} {c : Column}
    (h : (Field.columns fs).get? n = some c) :
    ∃ f ∈ fs, ColumnName.normalize f.name = n ∧ c = .new n f.kind := by
  rcases ColumnRegistry.mem_addAll (ColumnRegistry.mem_of_get? h) with none | listed
  · cases none
  · obtain ⟨f, mem, rfl⟩ := List.mem_map.1 listed
    obtain rfl := ColumnRegistry.name_of_get? h
    exact ⟨f, mem, rfl, rfl⟩

/-- A field declares a column if its name is not empty in normal form. -/
theorem get?_columns_isSome_iff {fs : List Field} {f : Field} (mem : f ∈ fs) :
    (∃ c, (Field.columns fs).get? (ColumnName.normalize f.name) = some c) ↔
      ColumnName.normalize f.name ≠ "" := by
  constructor
  · rintro ⟨c, hc⟩ empty
    have named := (ColumnRegistry.wellFormed_ofList _).named c (ColumnRegistry.mem_of_get? hc)
    exact named ((ColumnRegistry.name_of_get? hc).trans empty)
  · intro named
    exact ColumnRegistry.get?_addAll_of_mem
      (c := .new (ColumnName.normalize f.name) f.kind) (List.mem_map.2 ⟨f, mem, rfl⟩) named

end Debezium

/-! ## Both filters -/

namespace RowEvent

open ColumnName (normalize)
open Debezium (Field Payload changeOf imageFields)

variable {s : TopicSettings} {mode : Mode} {now : Instant} {key : Row} {c : Change} {e : RowEvent}
  {schema : List Field} {payload : Payload} {f : Field}

/-- Columns that are no primary keys and not static are declared if they are announced. -/
theorem get?_declared (makes : ofChange s mode now key c = .ok e) {n : String} (named : n ≠ "")
    (notKey : n ∉ e.primaryKeys) (notStatic : n ∉ s.staticNames) :
    e.declared.get? n = if s.announces n then (c.columns.getD .empty).get? n else none := by
  have notNamed : n ∉ s.keyNames key := by
    rwa [(ofChange_names makes).2, TopicSettings.mem_sortNames] at notKey
  have shaped := TopicSettings.get?_shapeColumns (s := s) named c.columns
  rw [if_neg notStatic, Option.or_none] at shaped
  rcases marks_of_ofChange makes with ⟨none, bare⟩ | ⟨r, r', some, marked, columns⟩
  · rw [none] at shaped
    rwa [declared, bare]
  · rw [some] at shaped
    rw [declared, columns]
    exact (TopicSettings.get?_markKeys marked notNamed).trans shaped

/-- A field that the schema of an upsert declares and of which the row has a value, and which is
neither a primary key nor a static column of the event. -/
structure PlainField (e : RowEvent) (s : TopicSettings) (schema : List Field) (payload : Payload)
    (f : Field) : Prop where
  /-- The schema lists the field for the row. -/
  field : f ∈ imageFields (some schema)
  /-- The row has a value of it. -/
  value : ∃ row v, payload.after = some row ∧ row.get? f.name = some v
  /-- It is no primary key. -/
  notKey : normalize f.name ∉ e.primaryKeys
  /-- It is not static by the name that the source gives. -/
  notStatic : f.name ∉ s.staticNames
  /-- It is not static by the name that the destination gets. -/
  notStatic' : normalize f.name ∉ s.staticNames

/-- The columns and the data of an event are filtered alike in a field. -/
structure FiltersAlike (e : RowEvent) (schema : List Field) (f : Field) : Prop where
  /-- The event has a column for the field if and only if it has a value. -/
  alike : (∃ c, e.declared.get? (normalize f.name) = some c) ↔
    ∃ v, e.data.get? f.name = some v
  /-- If it has a value, the column is of the kind that the schema declares. -/
  kind : (∃ v, e.data.get? f.name = some v) → ∃ g ∈ imageFields (some schema),
    normalize g.name = normalize f.name ∧
      e.declared.get? (normalize f.name) = some (.new (normalize f.name) g.kind)

/-- The event has a column for a field if the filters announce the normal form of its name. -/
theorem declared_isSome_iff (reads : changeOf (some schema) payload = .ok c)
    (makes : ofChange s mode now key c = .ok e) (plain : e.PlainField s schema payload f) :
    (∃ c, e.declared.get? (normalize f.name) = some c) ↔
      s.announces (normalize f.name) ∧ normalize f.name ≠ "" := by
  have listed := Debezium.get?_columns_isSome_iff plain.field
  by_cases named : normalize f.name = ""
  · have wellFormed := wellFormed_declared (Debezium.wellFormed_of_changeOf reads) makes
    refine iff_of_false ?_ fun h => h.2 named
    rintro ⟨column, hc⟩
    have own := wellFormed.named column (ColumnRegistry.mem_of_get? hc)
    exact own ((ColumnRegistry.name_of_get? hc).trans named)
  · rw [get?_declared makes named plain.notKey plain.notStatic',
      Debezium.columns_of_changeOf reads]
    by_cases shown : s.announces (normalize f.name)
    · rw [if_pos shown]
      simp [listed, shown]
    · rw [if_neg shown]
      simp [shown]

/-- The event has a value of a field if the filters keep the name that the source gives, and the
column does not go away. -/
theorem data_isSome_iff (reads : changeOf (some schema) payload = .ok c)
    (makes : ofChange s mode now key c = .ok e) (plain : e.PlainField s schema payload f) :
    (∃ v, e.data.get? f.name = some v) ↔
      s.announces f.name ∧ f.name ∉ TopicSettings.droppedNames mode := by
  obtain ⟨row, v, after, there⟩ := plain.value
  have filled : row.isEmpty = false := by
    rw [Bool.eq_false_iff]
    intro empty
    rw [SortedMap.isEmpty_iff.1 empty] at there
    cases there
  obtain ⟨upserts, converted⟩ := Debezium.after_of_filled reads after filled
  have inImage : ((image c key).get? f.name).isSome := by
    rw [image, upserts, if_neg Bool.false_ne_true, converted, Option.getD_some,
      Debezium.get?_convertRow, there]
    rfl
  rw [← Option.isSome_iff_exists, TopicSettings.data_of_ofChange makes,
    TopicSettings.get?_shapeData, TopicSettings.keeps_eq_announces plain.notStatic,
    ← TopicSettings.get?_edits_isSome inImage plain.notStatic mode c now]
  split
  · rename_i shown
    simp [shown]
  · rename_i hidden
    simp [hidden]

end RowEvent

namespace TopicSettings

open ColumnName (normalize)

/-- The filters decide the same of a name and of its normal form: both are kept, or none of them
is. -/
def TreatsAlike (s : TopicSettings) (mode : Mode) (name : String) : Prop :=
  (s.announces (normalize name) ∧ normalize name ≠ "") ↔
    (s.announces name ∧ name ∉ droppedNames mode)

/-- A name in normal form is treated alike, unless its column goes away. -/
theorem treatsAlike_of_normal {name : String} (normal : normalize name = name)
    (named : name ≠ "") {mode : Mode} (stays : name ∉ droppedNames mode) (s : TopicSettings) :
    s.TreatsAlike mode name := by
  unfold TreatsAlike
  rw [normal]
  simp [named, stays]

end TopicSettings

namespace RowEvent

open ColumnName (normalize)
open Debezium (Field Payload changeOf imageFields)

variable {s : TopicSettings} {mode : Mode} {now : Instant} {key : Row} {c : Change} {e : RowEvent}
  {schema : List Field} {payload : Payload} {f : Field}

/-- The columns and the data of an event are filtered alike in a field if and only if the filters
decide the same of its name and of the normal form of it. -/
theorem filtersAlike_iff (reads : changeOf (some schema) payload = .ok c)
    (makes : ofChange s mode now key c = .ok e) (plain : e.PlainField s schema payload f) :
    e.FiltersAlike schema f ↔ s.TreatsAlike mode f.name := by
  have columns := declared_isSome_iff reads makes plain
  have data := data_isSome_iff reads makes plain
  constructor
  · intro h
    exact columns.symm.trans (h.alike.trans data)
  · intro h
    have alike := columns.trans (h.trans data.symm)
    refine ⟨alike, fun value => ?_⟩
    obtain ⟨column, hc⟩ := alike.2 value
    obtain ⟨shown, named⟩ := columns.1 ⟨column, hc⟩
    have declared := get?_declared makes named plain.notKey plain.notStatic'
    rw [if_pos shown, Debezium.columns_of_changeOf reads, hc] at declared
    obtain ⟨g, mem, same, rfl⟩ := Debezium.get?_columns_eq_some declared.symm
    exact ⟨g, mem, same, hc⟩

/-! ## A column with an upper-case name -/

/-- A text field. -/
def textField (name : String) : Field := .mk "string" name none [] []

/-- The schema of rows with an integer `id` and a text. -/
def textSchema (name : String) : List Field :=
  [.mk "struct" "after" none [] [.mk "int32" "id" none [] [], textField name]]

/-- A row with a text was inserted. -/
def textPayload (name : String) : Payload :=
  ⟨some (.ofList [("id", .int 1), (name, .string "x")]), Sample.millis, "people",
    Operation.create.code⟩

/-- The settings of a topic that drops a column. -/
def excluding (column : String) : TopicSettings :=
  { Sample.settings "people" with columnsToExclude := [column] }

/-- The key of the row. -/
def textKey : Row := Debezium.keyColumns [("id", .int 1)]

/-- The row makes an event, in which the text is a plain field. -/
theorem exists_textEvent (name column : String) (other : normalize name ≠ "id") :
    ∃ c e, changeOf (some (textSchema name)) (textPayload name) = .ok c ∧
      ofChange (excluding column) .replication ⟨0⟩ textKey c = .ok e ∧
      e.PlainField (excluding column) (textSchema name) (textPayload name) (textField name) := by
  have keys : (excluding column).keyNames textKey = ["id"] := rfl
  have named : ∀ n ∈ (excluding column).keyNames textKey, n ≠ "" := by
    rw [keys]
    decide
  have read : changeOf (some (textSchema name)) (textPayload name) = .ok _ := rfl
  obtain ⟨e, makes⟩ : ∃ e, ofChange (excluding column) .replication ⟨0⟩ textKey _ = .ok e :=
    ofChange_isOk named rfl
  refine ⟨_, e, read, makes, List.mem_cons_of_mem _ List.mem_cons_self, ⟨_, .string "x", rfl, ?_⟩,
    ?_, List.not_mem_nil, List.not_mem_nil⟩
  · exact SortedMap.get?_insert_self _ name _
  · rw [(ofChange_names makes).2, TopicSettings.mem_sortNames, keys]
    exact fun mem => other (List.mem_singleton.1 mem)

theorem filtersAlike_iff_email :
    ∃ c e, changeOf (some (textSchema "email")) (textPayload "email") = .ok c ∧
      ofChange (excluding "email") .replication ⟨0⟩ textKey c = .ok e ∧
      e.PlainField (excluding "email") (textSchema "email") (textPayload "email")
        (textField "email") ∧
      (e.FiltersAlike (textSchema "email") (textField "email") ↔
        (excluding "email").TreatsAlike .replication "email") := by
  obtain ⟨c, e, reads, makes, plain⟩ :=
    exists_textEvent "email" "email" (by decide +kernel)
  exact ⟨c, e, reads, makes, plain, filtersAlike_iff reads makes plain⟩

/-- A column that is dropped from the rows is announced to the destination. -/
theorem excluded_column_is_announced :
    (excluding "Email").validate = .ok () ∧
      ∃ c e, changeOf (some (textSchema "Email")) (textPayload "Email") = .ok c ∧
        ofChange (excluding "Email") .replication ⟨0⟩ textKey c = .ok e ∧
        e.PlainField (excluding "Email") (textSchema "Email") (textPayload "Email")
          (textField "Email") ∧
        (∃ column, e.declared.get? "email" = some column) ∧ e.data.get? "Email" = none ∧
        ¬ e.FiltersAlike (textSchema "Email") (textField "Email") := by
  obtain ⟨c, e, reads, makes, plain⟩ :=
    exists_textEvent "Email" "Email" (by decide +kernel)
  have lower : normalize (textField "Email").name = "email" := by decide +kernel
  have announced : ∃ column, e.declared.get? "email" = some column := by
    have columns := declared_isSome_iff reads makes plain
    rw [lower] at columns
    exact columns.2 (by decide +kernel)
  have absent : ¬ ∃ v, e.data.get? "Email" = some v := by
    intro there
    have kept := ((data_isSome_iff reads makes plain).1 there).1
    exact absurd kept (by decide +kernel)
  refine ⟨rfl, c, e, reads, makes, plain, announced, ?_, fun h => absent (h.alike.1 ?_)⟩
  · simpa [Option.eq_none_iff_forall_ne_some] using absent
  · rwa [lower]

end RowEvent

end ChangeCapture
