import ChangeCapture.Proofs.RowEvent.Ordering
import ChangeCapture.Proofs.RowEvent.Shaping

/-!
# Static columns

A topic may write a text into a column of its own in every row.  The event of a change
that has such a column already is refused.  Names are compared as the source and the
settings give them, and written in normal form, so a row and a static column whose names
come to one in normal form are not kept apart.

The static columns reach every row that is buffered, as texts, if and only if names that
come to one are the same, static columns that come to one have the same text, none of them
is the placeholder, and neither the schema nor the text makes their column anything but a
text (`TopicSettings.deliversStatics_iff`).
-/

namespace ChangeCapture

theorem Json.collapsed_string (t : String) : (Json.string t).collapsed = .string t := by
  cases placeholder : (t == Json.unavailable) with
  | false => simp [collapsed, standsForUnavailable, isPlaceholder, field?, placeholder]
  | true => simp [collapsed, standsForUnavailable, isPlaceholder, field?, eq_of_beq placeholder]

/-- The row that was saved last under a key. -/
def Window.rowOf? (w : Window) (key : String) : Option Row :=
  match w.mode with
  | .replication => w.keyed.get? key
  | .history => w.appended.getLast?

theorem Window.rowOf?_take (w : Window) (i : Insertion) (time : Instant) (m : Message) :
    (w.take i time m).rowOf? i.key = some (w.stored i) := by
  have mode : (w.take i time m).mode = w.mode := by
    rw [take, observe_eq]
    exact mode_insert w i.key i.row i.deleted
  rw [rowOf?, mode, keyed_take, appended_take]
  cases w.mode with
  | replication => exact SortedMap.get?_insert_self ..
  | history => exact List.getLast?_concat

/-! ## Values in every order -/

namespace RowEvent

open ColumnName (normalize)
open ColumnRegistry (IsOpen Suggests)

/-- A column has the value that all values under its name come to. -/
theorem get?_rowIn_of_agreed {entries : List (String × Json)} {u : String × Json} {v : Json}
    (mem : u ∈ entries)
    (agreed : ∀ u' ∈ entries, normalize u'.1 = normalize u.1 → u'.2.collapsed = v) :
    (rowIn entries).get? (normalize u.1) = some v := by
  obtain ⟨x, hx⟩ := get?_rowIn_of_mem mem
  obtain ⟨u', mem', same, rfl⟩ := get?_rowIn_eq_some hx
  rw [hx, agreed u' mem' same]

/-- In a window that starts with it, the event gives the column of a name a kind: it declares the
column with the kind, or leaves it open, and of the values under the name one suggests the kind and
none suggests another one. -/
def SettlesOn (e : RowEvent) (n : String) (kind : ColumnKind) : Prop :=
  (∃ f, e.declared.facts? n = some f ∧ f.kind = kind) ∨
    IsOpen n (e.declared.facts? n) ∧
      (∃ v ∈ under n e.data.toList, Suggests e.hints v kind) ∧
      ∀ v ∈ under n e.data.toList, ∀ kind', Suggests e.hints v kind' → kind' = kind

/-- An event gives the column of a name a kind in every order of its values if and only if it
settles on the kind. -/
theorem settlesOn_iff {e : RowEvent} (savable : e.Savable) (n : String) {kind : ColumnKind}
    (typed : kind ≠ .invalid) :
    (∀ entries, entries.Perm e.data.toList →
      ∃ f, (visit e.hints e.declared .empty entries).1.facts? n = some f ∧ f.kind = kind) ↔
      e.SettlesOn n kind := by
  have facts : ∀ entries, entries.Perm e.data.toList →
      (visit e.hints e.declared .empty entries).1.facts? n =
        (under n entries).foldl (ColumnRegistry.see e.hints n) (e.declared.facts? n) :=
    fun entries perm => facts?_visit (savable.visits perm _) n
  constructor
  · intro settles
    obtain ⟨f, hf, same⟩ := settles _ (.refl _)
    rw [facts _ (.refl _)] at hf
    by_cases isOpen : IsOpen n (e.declared.facts? n)
    · have agreed : ∀ v ∈ under n e.data.toList, ∀ kind', Suggests e.hints v kind' →
          kind' = kind := by
        intro v mem kind' suggests
        obtain ⟨mem, here⟩ := List.mem_filter.1 mem
        obtain ⟨rest, perm⟩ := exists_perm_cons mem
        obtain ⟨f', hf', same'⟩ := settles _ perm
        obtain ⟨g, hg, first⟩ := ColumnRegistry.foldl_see_of_first isOpen suggests (under n rest)
        rw [facts _ perm, under_cons (eq_of_beq here), hg] at hf'
        obtain rfl := Option.some.inj hf'
        exact first.symm.trans same'
      refine .inr ⟨isOpen, ?_, agreed⟩
      by_contra silent
      have none : ∀ v ∈ under n e.data.toList, ∀ kind', ¬ Suggests e.hints v kind' := by
        intro v mem kind' suggests
        obtain rfl := agreed v mem kind' suggests
        exact silent ⟨v, mem, suggests⟩
      have untyped := ColumnRegistry.isOpen_foldl_see isOpen none
      rw [hf] at untyped
      exact typed (same.symm.trans untyped)
    · left
      cases declares : e.declared.facts? n with
      | some g =>
        rw [declares] at hf isOpen
        obtain ⟨g', hg', kept⟩ : ∃ g', (under n e.data.toList).foldl
            (ColumnRegistry.see e.hints n) (some g) = some g' ∧ g'.kind = g.kind :=
          ColumnRegistry.foldl_see_of_typed isOpen _
        rw [hf] at hg'
        obtain rfl := Option.some.inj hg'
        exact ⟨g, rfl, kept.symm.trans same⟩
      | none =>
        rw [declares] at hf isOpen
        have empty : n = "" := not_not.1 isOpen
        have available : ∀ v ∈ under n e.data.toList, v.2.standsForUnavailable = false := by
          intro v mem
          obtain ⟨mem, here⟩ := List.mem_filter.1 mem
          by_contra unavailable
          have named := savable.named v mem (by simpa using unavailable)
          rw [eq_of_beq here, empty] at named
          cases named
        rw [ColumnRegistry.foldl_see_of_not_isOpen isOpen available] at hf
        cases hf
  · rintro (⟨f, hf, rfl⟩ | ⟨isOpen, suggested, agreed⟩) entries perm
    · rw [facts entries perm, hf]
      exact ColumnRegistry.foldl_see_of_typed typed _
    · have same : (under n entries).Perm (under n e.data.toList) := perm.filter _
      rw [facts entries perm]
      refine ColumnRegistry.foldl_see_of_agreed isOpen ?_ fun v mem => agreed v (same.mem_iff.1 mem)
      obtain ⟨v, mem, suggests⟩ := suggested
      exact ⟨v, same.mem_iff.2 mem, suggests⟩

end RowEvent

/-! ## Settings and events -/

namespace TopicSettings

open ColumnName (normalize)
open RowEvent (collectData ofChange)

theorem named_of_checkStaticColumns {topic : String} {seen : List String}
    {columns : List StaticColumn} (h : checkStaticColumns topic seen columns = .ok ()) :
    (∀ x ∈ columns, x.name ≠ "" ∧ x.name ∉ seen) ∧ (columns.map StaticColumn.name).Nodup := by
  induction columns generalizing seen with
  | nil => exact ⟨List.forall_mem_nil _, List.nodup_nil⟩
  | cons x rest ih =>
    unfold checkStaticColumns at h
    split at h
    · cases h
    · rename_i full
      split at h
      · cases h
      · rename_i fresh
        obtain ⟨others, distinct⟩ := ih h
        have named : x.name ≠ "" := by
          intro empty
          rw [empty] at full
          exact full rfl
        refine ⟨List.forall_mem_cons.2 ⟨⟨named, fresh⟩, fun y mem => ?_⟩, ?_⟩
        · exact ⟨(others y mem).1, fun seen => (others y mem).2 (List.mem_cons_of_mem _ seen)⟩
        · rw [List.map_cons, List.nodup_cons]
          refine ⟨fun again => ?_, distinct⟩
          obtain ⟨y, mem, same⟩ := List.mem_map.1 again
          exact (others y mem).2 (same ▸ List.mem_cons_self)

/-- Static columns have names of their own. -/
theorem named_statics {s : TopicSettings} (valid : s.validate = .ok ()) :
    (∀ x ∈ s.staticColumns, x.name ≠ "") ∧ s.staticNames.Nodup := by
  unfold validate at valid
  repeat' split at valid
  all_goals first
    | cases valid
    | exact ⟨fun x mem => ((named_of_checkStaticColumns valid).1 x mem).1,
        (named_of_checkStaticColumns valid).2⟩

theorem get?_putStatic_of_mem {data : Row} {columns : List StaticColumn} {x : StaticColumn}
    (distinct : (columns.map StaticColumn.name).Nodup) (mem : x ∈ columns) :
    (putStatic data columns).get? x.name = some (.string x.value) := by
  rcases get?_putStatic data columns x.name with ⟨out, -⟩ | ⟨y, mem', named, same⟩
  · exact absurd (List.mem_map_of_mem mem) out
  · rw [same, List.inj_on_of_nodup_map distinct mem' mem named]

/-! ## Refused events -/

/-- A primary key without a name cannot be marked. -/
theorem fault_of_markKeys {names : List String} {r : ColumnRegistry} {f : Fault}
    (h : markKeys names r = .error f) : f.kind = .invalidData := by
  unfold markKeys at h
  induction names generalizing r with
  | nil => cases h
  | cons name rest ih =>
    rw [List.foldlM_cons] at h
    cases marked : r.mark name .asPrimaryKey with
    | ok r' =>
      rw [marked] at h
      exact ih h
    | error f' =>
      rw [marked] at h
      obtain rfl := Except.error.inj h
      unfold ColumnRegistry.mark at marked
      split at marked
      · obtain rfl := Except.error.inj marked
        rfl
      · split at marked <;> cases marked

theorem named_of_markKeys {names : List String} {r r' : ColumnRegistry}
    (h : markKeys names r = .ok r') : "" ∉ names := by
  unfold markKeys at h
  induction names generalizing r with
  | nil => exact List.not_mem_nil
  | cons name rest ih =>
    rw [List.foldlM_cons] at h
    obtain ⟨r₁, first, h⟩ := Outcome.bind_eq_ok.1 h
    rw [List.mem_cons, not_or]
    refine ⟨?_, ih h⟩
    rintro rfl
    cases first

theorem fault_of_addStatic {data : Row} {columns : List StaticColumn} {f : Fault}
    (h : addStatic data columns = .error f) : f.kind = .invalidEvent := by
  induction columns generalizing data with
  | nil => cases h
  | cons x rest ih =>
    unfold addStatic at h
    split at h
    · obtain rfl := Except.error.inj h
      rfl
    · exact ih h

section

variable {s : TopicSettings} {mode : Mode} {now : Instant} {key : Row} {c : Change} {e : RowEvent}

/-- The row of a change has a column of the name of a static column. -/
def Collides (s : TopicSettings) (mode : Mode) (now : Instant) (key : Row) (c : Change) : Prop :=
  ∃ x ∈ s.staticColumns, x.name ∈ (collectData s mode c key now).keys

/-- The row of a change has a column whose name comes to that of a static column in normal form. -/
def Clashes (s : TopicSettings) (mode : Mode) (now : Instant) (key : Row) (c : Change) : Prop :=
  ∃ x ∈ s.staticColumns, ∃ n ∈ (collectData s mode c key now).keys, normalize n = normalize x.name

theorem Collides.clashes (h : s.Collides mode now key c) : s.Clashes mode now key c := by
  obtain ⟨x, mem, there⟩ := h
  exact ⟨x, mem, x.name, there, rfl⟩

theorem addStatic_isOk_iff (distinct : s.staticNames.Nodup) :
    (∃ data, addStatic (collectData s mode c key now) s.staticColumns = .ok data) ↔
      ¬ s.Collides mode now key c := by
  have free : (∀ x ∈ s.staticColumns, (collectData s mode c key now).get? x.name = none) ↔
      ¬ s.Collides mode now key c := by
    simp only [Collides, SortedMap.mem_keys_iff, not_exists, not_and,
      Option.eq_none_iff_forall_ne_some, ne_eq]
  rw [← free]
  constructor
  · rintro ⟨data, h⟩
    exact (addStatic_eq_ok_iff.1 h).1
  · exact fun h => ⟨_, addStatic_eq_ok_iff.2 ⟨h, distinct, rfl⟩⟩

theorem shapeColumns_isSome {x : StaticColumn} (mem : x ∈ s.staticColumns)
    (columns : Option ColumnRegistry) : ∃ r, s.shapeColumns columns = some r := by
  have filled : s.staticColumns.isEmpty = false := by
    simpa using List.ne_nil_of_mem mem
  unfold shapeColumns
  rw [filled, Bool.and_false, if_neg Bool.false_ne_true]
  exact ⟨_, rfl⟩

/-- The primary keys of an event that is refused have names. -/
theorem marked_of_refused {columns : ColumnRegistry}
    (shaped : s.shapeColumns c.columns = some columns) {f : Fault}
    (refused : ofChange s mode now key c = .error f) (kind : f.kind = .invalidEvent) :
    ∃ r, markKeys (s.keyNames key) columns = .ok r := by
  cases hm : markKeys (s.keyNames key) columns with
  | ok r => exact ⟨r, rfl⟩
  | error f' =>
    simp only [ofChange, shaped, hm] at refused
    obtain rfl := Except.error.inj refused
    rw [fault_of_markKeys hm] at kind
    cases kind

/-- The event of a change is refused if and only if its row has a column of the name of a static
column, and all primary keys have names. -/
theorem refused_iff (distinct : s.staticNames.Nodup) :
    (∃ f, ofChange s mode now key c = .error f ∧ f.kind = .invalidEvent) ↔
      s.Collides mode now key c ∧ "" ∉ s.keyNames key := by
  have collides : (∃ data, addStatic (collectData s mode c key now) s.staticColumns = .ok data) ↔
      ¬ s.Collides mode now key c := addStatic_isOk_iff distinct
  constructor
  · rintro ⟨f, refused, kind⟩
    have collision : s.Collides mode now key c := by
      by_contra apart
      obtain ⟨data, hdata⟩ := collides.2 apart
      cases hs : s.shapeColumns c.columns with
      | none =>
        simp only [ofChange, hs, hdata] at refused
        cases refused
      | some columns =>
        obtain ⟨r, hm⟩ := marked_of_refused hs refused kind
        simp only [ofChange, hs, hm, hdata] at refused
        cases refused
    obtain ⟨x, mem, -⟩ := id collision
    obtain ⟨columns, hs⟩ := shapeColumns_isSome mem c.columns
    obtain ⟨r, hm⟩ := marked_of_refused hs refused kind
    exact ⟨collision, named_of_markKeys hm⟩
  · rintro ⟨collision, named⟩
    obtain ⟨x, mem, -⟩ := id collision
    obtain ⟨columns, hs⟩ := shapeColumns_isSome mem c.columns
    obtain ⟨r, hm⟩ := markKeys_isOk (fun n mem empty => named (empty ▸ mem)) columns
    cases hadd : addStatic (collectData s mode c key now) s.staticColumns with
    | ok data => exact absurd collision (collides.1 ⟨data, hadd⟩)
    | error f =>
      refine ⟨f, ?_, fault_of_addStatic hadd⟩
      simp only [ofChange, hs, hm, hadd]
      rfl

/-! ## Events that are made -/

/-- No static column is replaced by its digest or dropped. -/
def LeavesStatics (s : TopicSettings) : Prop :=
  ∀ x ∈ s.staticColumns, x.name ∉ s.columnsToHash ∧ x.name ∉ s.columnsToExclude

theorem keeps_static (leaves : s.LeavesStatics) {x : StaticColumn} (mem : x ∈ s.staticColumns) :
    s.keeps x.name := by
  have listed : x.name ∈ s.keptNames :=
    List.mem_append_right _ (List.mem_map.2 ⟨x, mem, rfl⟩)
  simp [keeps, (leaves x mem).2, listed]

/-- A static column of an event holds its text. -/
theorem get?_data_static (made : ofChange s mode now key c = .ok e) (leaves : s.LeavesStatics)
    {x : StaticColumn} (mem : x ∈ s.staticColumns) :
    e.data.get? x.name = some (.string x.value) := by
  obtain ⟨-, -, -, -, data, hdata, shaped⟩ := RowEvent.ofChange_parts made
  obtain ⟨-, distinct, rfl⟩ := addStatic_eq_ok_iff.1 hdata
  rw [shaped, get?_shapeData, if_pos (keeps_static leaves mem), get?_putStatic_of_mem distinct mem,
    List.count_eq_zero.2 (leaves x mem).1]
  rfl

/-- If no name clashes, only static columns have names that come to that of a static column. -/
theorem static_of_mem_data (made : ofChange s mode now key c = .ok e) (leaves : s.LeavesStatics)
    (apart : ¬ s.Clashes mode now key c) {x : StaticColumn} (mem : x ∈ s.staticColumns)
    {v : String × Json} (there : v ∈ e.data.toList) (same : normalize v.1 = normalize x.name) :
    ∃ y ∈ s.staticColumns, v = (y.name, .string y.value) := by
  obtain ⟨-, -, -, -, data, hdata, shaped⟩ := RowEvent.ofChange_parts made
  obtain ⟨-, -, rfl⟩ := addStatic_eq_ok_iff.1 hdata
  have hv : e.data.get? v.1 = some v.2 := SortedMap.get?_eq_some_iff.2 there
  have collected : (collectData s mode c key now).get? v.1 = none := by
    refine Option.eq_none_iff_forall_ne_some.2 fun u hu => apart ⟨x, mem, v.1, ?_, same⟩
    exact SortedMap.mem_keys_iff.2 ⟨u, hu⟩
  rcases get?_putStatic (collectData s mode c key now) s.staticColumns v.1 with
    ⟨-, other⟩ | ⟨y, mem', named, -⟩
  · obtain ⟨-, u, hu, -⟩ := keeps_of_get? (shaped ▸ hv)
    rw [other, collected] at hu
    cases hu
  · have text := get?_data_static made leaves mem'
    rw [named, hv] at text
    exact ⟨y, mem', Prod.ext named.symm (Option.some.inj text)⟩

theorem not_collides_of_made (distinct : s.staticNames.Nodup)
    (made : ofChange s mode now key c = .ok e) : ¬ s.Collides mode now key c := by
  obtain ⟨-, -, -, -, data, hdata, -⟩ := RowEvent.ofChange_parts made
  exact (addStatic_isOk_iff distinct).1 ⟨data, hdata⟩

end

end TopicSettings

/-! ## Static columns of the rows that are buffered -/

namespace RowEvent

open ColumnName (normalize)

variable {s : TopicSettings} {mode : Mode} {now : Instant} {key : Row} {c : Change} {e : RowEvent}

/-- The table has no window, or one in the mode of the event. -/
def Suits (e : RowEvent) (r : TableRegistry) : Prop :=
  ∀ w, r.content e.tableId = some w → w.mode = e.mode

/-- Wherever the event is saved, and in whatever order its values are visited, its row is buffered
with the texts of the static columns, and a window that starts with it has text columns for them. -/
structure CarriesStatics (e : RowEvent) (s : TopicSettings) : Prop where
  /-- The row has the text of each static column. -/
  texts : ∀ m r entries, e.Suits r → entries.Perm e.data.toList → e.Saves s m r entries →
    ∃ key w row, e.keyIn entries = .ok key ∧
      (e.saveInOrder s m entries r).1.content e.tableId = some w ∧ w.rowOf? key = some row ∧
      ∀ x ∈ s.staticColumns, row.get? (normalize x.name) = some (.string x.value)
  /-- The columns of a window that starts with the event are of the kind of texts. -/
  kinds : ∀ m r entries, r.content e.tableId = none → entries.Perm e.data.toList →
    e.Saves s m r entries → ∃ w, (e.saveInOrder s m entries r).1.content e.tableId = some w ∧
      ∀ x ∈ s.staticColumns, ∃ c, w.columns.get? (normalize x.name) = some c ∧ c.kind = .string

/-- Nothing in the event stands against its static columns. -/
structure FitsStatics (e : RowEvent) (s : TopicSettings) : Prop where
  /-- Static columns whose names come to one have one text. -/
  concur : ∀ x ∈ s.staticColumns, ∀ y ∈ s.staticColumns, normalize x.name = normalize y.name →
    x.value = y.value
  /-- No text is the placeholder, unless the row is appended. -/
  available : e.mode = .replication → ∀ x ∈ s.staticColumns, x.value ≠ Json.unavailable
  /-- The columns become text columns. -/
  kinds : ∀ x ∈ s.staticColumns, e.SettlesOn (normalize x.name) .string

/-! ## The window of an event -/

theorem windowFor_of_content (e : RowEvent) (s : TopicSettings) (r : TableRegistry) :
    (r.content e.tableId = none ∧ e.windowFor s (r.getOrNew e.tableId s.topic) =
        .new e.tableId e.table e.mode e.declared e.primaryKeys s) ∨
      ∃ w, r.content e.tableId = some w ∧ e.windowFor s (r.getOrNew e.tableId s.topic) =
        { w with columns := w.columns.addAll e.declared.columns } := by
  rcases e.windowFor_getOrNew s r with ⟨empty, fresh⟩ | ⟨b, w, holds, old⟩
  · exact .inl ⟨TableRegistry.content_getOrNew empty, fresh⟩
  · exact .inr ⟨w, holds.content, old⟩

theorem Suits.mode_windowFor {r : TableRegistry} (suits : e.Suits r) (s : TopicSettings) :
    (e.windowFor s (r.getOrNew e.tableId s.topic)).mode = e.mode := by
  rcases e.windowFor_of_content s r with ⟨-, fresh⟩ | ⟨w, hw, old⟩
  · rw [fresh]
    rfl
  · rw [old]
    exact suits w hw

theorem columns_windowFor {r : TableRegistry} (vacant : r.content e.tableId = none)
    (s : TopicSettings) :
    (e.windowFor s (r.getOrNew e.tableId s.topic)).columns = e.declared := by
  rcases e.windowFor_of_content s r with ⟨-, fresh⟩ | ⟨w, hw, -⟩
  · rw [fresh]
    rfl
  · rw [vacant] at hw
    cases hw

theorem columns_windowIn {r : TableRegistry} (vacant : r.content e.tableId = none)
    (s : TopicSettings) (m : Message) (entries : List (String × Json)) (key : String) :
    (e.windowIn s m r entries key).columns = (visit e.hints e.declared .empty entries).1 := by
  rw [windowIn, Window.columns_take, ← columns_windowFor vacant s]
  rfl

theorem exists_column_iff {r : ColumnRegistry} {n : String} {kind : ColumnKind} :
    (∃ c, r.get? n = some c ∧ c.kind = kind) ↔ ∃ f, r.facts? n = some f ∧ f.kind = kind := by
  simp only [ColumnRegistry.facts?, Option.map_eq_some_iff]
  constructor
  · rintro ⟨c, hc, rfl⟩
    exact ⟨c.facts, ⟨c, hc, rfl⟩, rfl⟩
  · rintro ⟨f, ⟨c, hc, rfl⟩, rfl⟩
    exact ⟨c, hc, rfl⟩

/-- The row that is buffered after the event was saved. -/
theorem rowOf?_windowIn (e : RowEvent) (s : TopicSettings) (m : Message) (r : TableRegistry)
    (entries : List (String × Json)) (key : String) :
    (e.windowIn s m r entries key).rowOf? key =
      some ((e.attempted s (r.getOrNew e.tableId s.topic) entries).stored
        ⟨key, rowIn entries, e.isDelete⟩) :=
  Window.rowOf?_take _ ⟨key, rowIn entries, e.isDelete⟩ e.time m

/-! ## Static columns that fit -/

section

variable (made : ofChange s mode now key c = .ok e) (leaves : s.LeavesStatics)
  (apart : ¬ s.Clashes mode now key c) (savable : e.Savable)

include made leaves

theorem mem_data_static {x : StaticColumn} (mem : x ∈ s.staticColumns) :
    (x.name, .string x.value) ∈ e.data.toList :=
  SortedMap.get?_eq_some_iff.1 (TopicSettings.get?_data_static made leaves mem)

include apart savable

theorem carriesStatics_of_fits (fits : e.FitsStatics s) : e.CarriesStatics s := by
  constructor
  · intro m r entries suits perm saves
    obtain ⟨key', hkey⟩ := (keyIn_isOk_iff perm).2 savable.keyed
    refine ⟨key', _, _, hkey, content_saveInOrder savable perm hkey,
      rowOf?_windowIn e s m r entries key', fun x mem => ?_⟩
    have text : (rowIn entries).get? (normalize x.name) = some (.string x.value) := by
      refine get?_rowIn_of_agreed (u := (x.name, .string x.value))
        (perm.mem_iff.2 (mem_data_static made leaves mem)) fun v there same => ?_
      obtain ⟨y, mem', rfl⟩ :=
        TopicSettings.static_of_mem_data made leaves apart mem (perm.mem_iff.1 there) same
      rw [Json.collapsed_string, fits.concur y mem' x mem same]
    rw [Window.get?_stored, text]
    have mode : (e.attempted s (r.getOrNew e.tableId s.topic) entries).mode = e.mode :=
      suits.mode_windowFor s
    unfold Window.beneath?
    rw [mode]
    cases replicates : e.mode with
    | history => rfl
    | replication =>
      have plain : (Json.string x.value).isPlaceholder = false :=
        beq_eq_false_iff_ne.2 (fits.available replicates x mem)
      exact Json.overlay_plain _ plain
  · intro m r entries vacant perm saves
    obtain ⟨key', hkey⟩ := (keyIn_isOk_iff perm).2 savable.keyed
    refine ⟨_, content_saveInOrder savable perm hkey, fun x mem => ?_⟩
    rw [exists_column_iff, columns_windowIn vacant]
    exact (settlesOn_iff savable _ (by decide)).2 (fits.kinds x mem) entries perm

end

/-- A registry in which the key of an event has null for a column. -/
def nulled (e : RowEvent) (s : TopicSettings) (key n : String) : TableRegistry :=
  (TableRegistry.new .default).putWindow e.tableId s.topic
    { Window.new e.tableId e.table .replication .empty e.primaryKeys s with
      keyed := SortedMap.empty.insert key (SortedMap.empty.insert n .null) }

theorem content_nulled (e : RowEvent) (s : TopicSettings) (key n : String) :
    (e.nulled s key n).content e.tableId =
      some { Window.new e.tableId e.table .replication .empty e.primaryKeys s with
        keyed := SortedMap.empty.insert key (SortedMap.empty.insert n .null) } :=
  TableRegistry.content_putWindow_self ..

theorem beneath?_nulled (e : RowEvent) (s : TopicSettings) (key n : String)
    (entries : List (String × Json)) :
    (e.attempted s ((e.nulled s key n).getOrNew e.tableId s.topic) entries).beneath? key n =
      some .null := by
  have content := e.content_nulled s key n
  unfold attempted
  rcases e.windowFor_of_content s (e.nulled s key n) with ⟨none, -⟩ | ⟨w, hw, old⟩
  · rw [content] at none
    cases none
  · obtain rfl := Option.some.inj (content.symm.trans hw)
    rw [old]
    simp [Window.beneath?, Window.value?, Window.new]

/-- A placeholder gives way to what the key had before. -/
theorem available_of_carriesStatics (savable : e.Savable) (carries : e.CarriesStatics s)
    (replicates : e.mode = .replication) {x : StaticColumn} (mem : x ∈ s.staticColumns) :
    x.value ≠ Json.unavailable := by
  intro placeholder
  obtain ⟨key, hkey⟩ := savable.keyed
  have suits : e.Suits (e.nulled s key (normalize x.name)) := by
    intro w hw
    obtain rfl := Option.some.inj ((e.content_nulled s key _).symm.trans hw)
    exact replicates.symm
  obtain ⟨key', w, row, hkey', hw, hrow, texts⟩ := carries.texts (Sample.message "" 0 .empty .empty)
    _ _ suits (.refl _) ((saves_iff (.refl _)).2 savable)
  obtain rfl := Except.ok.inj (hkey.symm.trans hkey')
  rw [content_saveInOrder savable (.refl _) hkey] at hw
  obtain rfl := Option.some.inj hw
  rw [rowOf?_windowIn] at hrow
  obtain rfl := Option.some.inj hrow
  have text := texts x mem
  rw [Window.get?_stored, beneath?_nulled] at text
  cases here : (rowIn e.data.toList).get? (normalize x.name) with
  | none =>
    rw [here] at text
    cases text
  | some v =>
    rw [here, Json.overlay_some] at text
    split at text
    · cases text
    · rename_i plain
      obtain rfl := Option.some.inj text
      exact plain (beq_iff_eq.2 placeholder)

theorem fits_of_carriesStatics (savable : e.Savable) (carries : e.CarriesStatics s) :
    e.FitsStatics s := by
  have vacant : (TableRegistry.new .default).content e.tableId = none := rfl
  have suits : e.Suits (.new .default) := by
    intro w hw
    rw [vacant] at hw
    cases hw
  have saves : ∀ entries, entries.Perm e.data.toList →
      e.Saves s (Sample.message "" 0 .empty .empty) (.new .default) entries :=
    fun entries perm => (saves_iff perm).2 savable
  refine ⟨?_, fun replicates x => available_of_carriesStatics savable carries replicates, ?_⟩
  · intro x hx y hy same
    obtain ⟨key, w, row, -, -, -, texts⟩ := carries.texts _ _ _ suits (.refl _) (saves _ (.refl _))
    have text := texts x hx
    rw [same, texts y hy] at text
    exact (Json.string.inj (Option.some.inj text)).symm
  · intro x mem
    refine (settlesOn_iff savable _ (by decide)).1 fun entries perm => ?_
    obtain ⟨w, hw, kinds⟩ := carries.kinds _ _ _ vacant perm (saves entries perm)
    obtain ⟨key, hkey⟩ := (keyIn_isOk_iff perm).2 savable.keyed
    rw [content_saveInOrder savable perm hkey] at hw
    obtain rfl := Option.some.inj hw
    rw [← exists_column_iff, ← columns_windowIn vacant s]
    exact kinds x mem

end RowEvent

/-! ## Static columns of a change -/

namespace TopicSettings

open ColumnName (normalize)
open RowEvent (collectData ofChange)

variable {s : TopicSettings} {mode : Mode} {now : Instant} {key : Row} {c : Change}

/-- The static columns reach every row that is buffered for a change, and the event of the change is
refused if its row has a column that stands in their way. -/
structure DeliversStatics (s : TopicSettings) (mode : Mode) (now : Instant) (key : Row)
    (c : Change) : Prop where
  /-- The event is refused if and only if a name of the row comes to that of a static column. -/
  refused : (∃ f, ofChange s mode now key c = .error f ∧ f.kind = .invalidEvent) ↔
    s.Clashes mode now key c
  /-- An event that is made carries the static columns wherever it is saved. -/
  carried : ∀ e, ofChange s mode now key c = .ok e → e.CarriesStatics s

/-- Nothing in the change stands against the static columns. -/
structure FitsChange (s : TopicSettings) (mode : Mode) (now : Instant) (key : Row) (c : Change) :
    Prop where
  /-- If a name of the row comes to that of a static column, one is the name of a static column, and
  all primary keys have names. -/
  collides : s.Clashes mode now key c → s.Collides mode now key c ∧ "" ∉ s.keyNames key
  /-- Nothing in an event that can be saved stands against them. -/
  fits : ∀ e, ofChange s mode now key c = .ok e → e.Savable → e.FitsStatics s

/-- A static column that the schema does not declare becomes a text column. -/
theorem settlesOn_static {e : RowEvent} (made : ofChange s mode now key c = .ok e)
    {x : StaticColumn} (mem : x ∈ s.staticColumns) (named : x.name ≠ "")
    (undeclared : (c.columns.getD .empty).get? x.name = none) : e.SettlesOn x.name .string := by
  have listed : x.name ∈ s.staticNames := List.mem_map.2 ⟨x, mem, rfl⟩
  have shaped := get?_shapeColumns (s := s) named c.columns
  rw [undeclared, ite_self, Option.none_or, if_pos listed] at shaped
  refine .inl (RowEvent.exists_column_iff.1 ?_)
  rcases RowEvent.marks_of_ofChange made with ⟨none, -⟩ | ⟨r, r', some, marked, columns⟩
  · rw [none] at shaped
    cases shaped
  · rw [some, Option.getD_some] at shaped
    rw [RowEvent.declared, columns]
    exact kind_of_markKeys marked shaped

/-- Nothing stands against the static columns if all names are in normal form, the texts are not the
placeholder, and the schema does not declare the static columns. -/
theorem fitsChange_of_normal (valid : s.validate = .ok ())
    (statics : ∀ x ∈ s.staticColumns, normalize x.name = x.name ∧ x.value ≠ Json.unavailable ∧
      (c.columns.getD .empty).get? x.name = none)
    (row : ∀ n ∈ (collectData s mode c key now).keys, normalize n = n)
    (keys : "" ∉ s.keyNames key) : s.FitsChange mode now key c := by
  obtain ⟨named, distinct⟩ := named_statics valid
  constructor
  · rintro ⟨x, mem, n, there, same⟩
    rw [row n there, (statics x mem).1] at same
    exact ⟨⟨x, mem, same ▸ there⟩, keys⟩
  · intro e made _
    refine ⟨fun x hx y hy same => ?_, fun _ x mem => (statics x mem).2.1, fun x mem => ?_⟩
    · rw [(statics x hx).1, (statics y hy).1] at same
      rw [List.inj_on_of_nodup_map distinct hx hy same]
    · rw [(statics x mem).1]
      exact settlesOn_static made mem (named x mem) (statics x mem).2.2

/-- The static columns reach every row of a change if and only if nothing in it stands against
them. -/
theorem deliversStatics_iff (valid : s.validate = .ok ()) (leaves : s.LeavesStatics) :
    s.DeliversStatics mode now key c ↔ s.FitsChange mode now key c := by
  have distinct := (named_statics valid).2
  have refused : (∃ f, ofChange s mode now key c = .error f ∧ f.kind = .invalidEvent) ↔
      s.Collides mode now key c ∧ "" ∉ s.keyNames key := refused_iff distinct
  constructor
  · intro delivers
    exact ⟨fun clash => refused.1 (delivers.refused.2 clash),
      fun e made savable => RowEvent.fits_of_carriesStatics savable (delivers.carried e made)⟩
  · intro fits
    refine ⟨refused.trans ⟨fun h => h.1.clashes, fits.collides⟩, fun e made => ?_⟩
    have apart : ¬ s.Clashes mode now key c :=
      fun clash => not_collides_of_made distinct made (fits.collides clash).1
    by_cases savable : e.Savable
    · exact RowEvent.carriesStatics_of_fits made leaves apart savable (fits.fits e made savable)
    · exact ⟨fun m r entries _ perm saves => absurd ((RowEvent.saves_iff perm).1 saves) savable,
        fun m r entries _ perm saves => absurd ((RowEvent.saves_iff perm).1 saves) savable⟩

/-! ## A column of the source with a static name -/

/-- The settings of a topic that writes a region into each row. -/
def stamping (name : String) : TopicSettings :=
  { Sample.settings "people" with staticColumns := [⟨name, "eu"⟩] }

/-- The insertion of a person with one more column. -/
def stamped (column : String) : Change :=
  Sample.change "people" .create (some (.ofList [("id", .int 1), (column, .string "us")]))

theorem leavesStatics_stamping (name : String) : (stamping name).LeavesStatics :=
  fun _ _ => ⟨List.not_mem_nil, List.not_mem_nil⟩

theorem deliversStatics_region :
    (stamping "region").validate = .ok () ∧ (stamping "region").LeavesStatics ∧
      (stamping "region").FitsChange .replication ⟨0⟩ (.ofList [("id", .int 1)])
        (stamped "name") ∧
      (stamping "region").DeliversStatics .replication ⟨0⟩ (.ofList [("id", .int 1)])
        (stamped "name") := by
  have fits : (stamping "region").FitsChange .replication ⟨0⟩ (.ofList [("id", .int 1)])
      (stamped "name") := by
    refine fitsChange_of_normal rfl (fun x mem => ?_) (by decide +kernel) (by decide +kernel)
    obtain rfl := List.mem_singleton.1 mem
    exact ⟨by decide +kernel, by decide, rfl⟩
  exact ⟨rfl, leavesStatics_stamping "region", fits,
    (deliversStatics_iff rfl (leavesStatics_stamping "region")).2 fits⟩

/-- A row with a column whose name comes to that of a static column is not refused. -/
theorem clashing_row_is_not_refused :
    (stamping "Region").validate = .ok () ∧ (stamping "Region").LeavesStatics ∧
      (stamping "Region").Clashes .replication ⟨0⟩ (.ofList [("id", .int 1)]) (stamped "region") ∧
      (∃ e, ofChange (stamping "Region") .replication ⟨0⟩ (.ofList [("id", .int 1)])
        (stamped "region") = .ok e) ∧
      ¬ (stamping "Region").DeliversStatics .replication ⟨0⟩ (.ofList [("id", .int 1)])
        (stamped "region") := by
  have clash : (stamping "Region").Clashes .replication ⟨0⟩ (.ofList [("id", .int 1)])
      (stamped "region") :=
    ⟨⟨"Region", "eu"⟩, List.mem_singleton.2 rfl, "region", by decide +kernel, by decide +kernel⟩
  have made : ∃ e, ofChange (stamping "Region") .replication ⟨0⟩ (.ofList [("id", .int 1)])
      (stamped "region") = .ok e := ⟨_, rfl⟩
  refine ⟨rfl, leavesStatics_stamping "Region", clash, made, fun delivers => ?_⟩
  obtain ⟨e, made⟩ := made
  obtain ⟨f, refused, -⟩ := delivers.refused.2 clash
  rw [made] at refused
  cases refused

end TopicSettings

end ChangeCapture
