import ChangeCapture.Proofs.Column.Seeing
import ChangeCapture.Proofs.RowEvent.Key
import ChangeCapture.Proofs.RowEvent.Refused
import ChangeCapture.Proofs.Table.Bookkeeping

/-!
# Orders in which an event is saved

The data of an event are a map, and nothing tells in which order its values are
visited.  Whether the event is saved does not depend on the order
(`RowEvent.saves_iff`).  What it leaves does if two names come to one in normal
form: the row takes the last of their values, and an open column takes the kind of
the first one.  So the order makes no difference if and only if such values come to
the same in the key, in the row and for the kind (`RowEvent.savesAlike_iff`).
-/

namespace ChangeCapture

namespace Window

/-! ## Windows that match -/

/-- The windows have the same rows under the same keys and in the same order, the same size, and
tell the same of every column. -/
structure Matches (w w' : Window) : Prop where
  /-- The rows by key. -/
  keyed : w.keyed = w'.keyed
  /-- The rows in order. -/
  appended : w.appended = w'.appended
  /-- The size. -/
  byteSize : w.byteSize = w'.byteSize
  /-- The kind and the mark of every column. -/
  facts : ∀ n, w.columns.facts? n = w'.columns.facts? n

/-- What a row of a key is laid over in a column. -/
def beneath? (w : Window) (key n : String) : Option Json :=
  match w.mode with
  | .replication => w.value? key n
  | .history => none

theorem get?_stored (w : Window) (i : Insertion) (n : String) :
    (w.stored i).get? n = Json.overlay (w.beneath? i.key n) (i.row.get? n) := by
  simp only [stored, beneath?, value?]
  cases w.mode with
  | replication => exact Tracks.get?_layer _ _ _
  | history => rw [Json.none_overlay]

/-- Saves a row, the time of its change, and its message. -/
def take (w : Window) (i : Insertion) (time : Instant) (m : Message) : Window :=
  ((w.insert i.key i.row i.deleted).observe time).record m

section Take

variable (w : Window) (i : Insertion) (time : Instant) (m : Message)

theorem keyed_take :
    (w.take i time m).keyed = match w.mode with
      | .replication => w.keyed.insert i.key (w.stored i)
      | .history => w.keyed := by
  show ((w.insert i.key i.row i.deleted).observe time).keyed = _
  rw [keyed_observe]
  simp only [insert, stored]
  cases w.mode <;> rfl

theorem appended_take :
    (w.take i time m).appended = match w.mode with
      | .replication => w.appended
      | .history => w.appended ++ [w.stored i] := by
  show ((w.insert i.key i.row i.deleted).observe time).appended = _
  rw [appended_observe]
  simp only [insert, stored]
  cases w.mode <;> rfl

theorem byteSize_take :
    (w.take i time m).byteSize =
      Row.addBytes w.byteSize (w.stored i).byteSize - w.replacedBytes i.key := by
  rw [← byteSize_insert, take, observe_eq]
  rfl

theorem columns_take : (w.take i time m).columns = w.columns := by
  rw [← columns_insert w i.key i.row i.deleted, take, observe_eq]
  rfl

end Take

/-- The rows of the windows are the same. -/
structure SameRows (w w' : Window) : Prop where
  /-- The mode. -/
  mode : w.mode = w'.mode
  /-- The rows by key. -/
  keyed : w.keyed = w'.keyed
  /-- The rows in order. -/
  appended : w.appended = w'.appended
  /-- The size. -/
  byteSize : w.byteSize = w'.byteSize

/-- Windows with the same rows match after they took a row of one key if and only if it is stored as
the same row, and the columns tell the same. -/
theorem matches_take_iff {w w' : Window} (same : w.SameRows w') {key : String} {row row' : Row}
    {deleted : Bool} {time : Instant} {m : Message} :
    (w.take ⟨key, row, deleted⟩ time m).Matches (w'.take ⟨key, row', deleted⟩ time m) ↔
      w.stored ⟨key, row, deleted⟩ = w'.stored ⟨key, row', deleted⟩ ∧
        ∀ n, w.columns.facts? n = w'.columns.facts? n := by
  constructor
  · rintro ⟨keyed, appended, -, facts⟩
    rw [columns_take, columns_take] at facts
    refine ⟨?_, facts⟩
    cases mode : w.mode with
    | replication =>
      rw [keyed_take, keyed_take, ← same.mode, mode] at keyed
      have there := congrArg (SortedMap.get? · key) keyed
      simpa using there
    | history =>
      rw [appended_take, appended_take, ← same.mode, mode, ← same.appended] at appended
      exact List.singleton_inj.1 (List.append_cancel_left appended)
  · rintro ⟨stored, facts⟩
    have replaced : w.replacedBytes key = w'.replacedBytes key := by
      rw [replacedBytes, replacedBytes, same.mode, same.keyed]
    refine ⟨?_, ?_, ?_, ?_⟩
    · rw [keyed_take, keyed_take, stored, same.mode, same.keyed]
    · rw [appended_take, appended_take, stored, same.mode, same.appended]
    · rw [byteSize_take, byteSize_take, stored, same.byteSize, replaced]
    · rw [columns_take, columns_take]
      exact facts

end Window

namespace RowEvent

open ColumnRegistry (see IsOpen Concur)

/-! ## Visits -/

/-- The values whose column has a name in normal form. -/
def under (n : String) (entries : List (String × Json)) : List (String × Json) :=
  entries.filter fun v => ColumnName.normalize v.1 == n

theorem under_cons {n : String} {v : String × Json} (here : ColumnName.normalize v.1 = n)
    (rest : List (String × Json)) : under n (v :: rest) = v :: under n rest :=
  List.filter_cons_of_pos (beq_iff_eq.2 here)

/-- What is told of a column after a visit comes from the values under its name. -/
theorem facts?_visit {hints : Option KindHints} {columns : ColumnRegistry} {row row' : Row}
    {entries : List (String × Json)} (h : (visit hints columns row entries).2 = .ok row')
    (n : String) :
    (visit hints columns row entries).1.facts? n =
      (under n entries).foldl (see hints n) (columns.facts? n) := by
  induction entries generalizing columns row with
  | nil => rfl
  | cons v rest ih =>
    simp only [visit] at h ⊢
    cases admitted : columns.admit hints v.1 v.2 with
    | error f =>
      rw [admitted] at h
      cases h
    | ok columns' =>
      rw [admitted] at h
      rw [ih h, ColumnRegistry.facts?_admit admitted]
      by_cases here : ColumnName.normalize v.1 = n
      · simp [here, under]
      · simp [here, Ne.symm here, under]

theorem rowIn_eq (entries : List (String × Json)) :
    rowIn entries =
      .ofList (entries.map fun v => (ColumnName.normalize v.1, v.2.collapsed)) := by
  unfold rowIn SortedMap.ofList SortedMap.insertMany
  rw [List.foldl_map]
  rfl

/-- Of two values under names that come to one, the last one is in the row. -/
theorem get?_rowIn_last {u v : String × Json}
    (same : ColumnName.normalize u.1 = ColumnName.normalize v.1) (entries : List (String × Json))
    (n : String) :
    (rowIn (entries ++ [v, u])).get? n =
      if n = ColumnName.normalize u.1 then some u.2.collapsed else (rowIn entries).get? n := by
  simp only [rowIn, List.foldl_append, List.foldl_cons, List.foldl_nil, put]
  rw [← same, SortedMap.insert_insert, SortedMap.get?_insert]

/-- A column of the row has one of the values under its name. -/
theorem get?_rowIn_eq_some {entries : List (String × Json)} {n : String} {x : Json}
    (h : (rowIn entries).get? n = some x) :
    ∃ v ∈ entries, ColumnName.normalize v.1 = n ∧ v.2.collapsed = x := by
  rcases mem_of_get?_foldl_put h with found | none
  · exact found
  · cases none

theorem get?_rowIn_of_mem {entries : List (String × Json)} {v : String × Json}
    (mem : v ∈ entries) : ∃ x, (rowIn entries).get? (ColumnName.normalize v.1) = some x := by
  rw [rowIn_eq]
  exact SortedMap.get?_insertMany_isSome
    (.inl ⟨v.2.collapsed, List.mem_map.2 ⟨v, mem, rfl⟩⟩)

/-! ## Saving in an order -/

/-- The event is saved when its values are visited in this order. -/
def Saves (e : RowEvent) (s : TopicSettings) (m : Message) (r : TableRegistry)
    (entries : List (String × Json)) : Prop :=
  ∃ reason, (e.saveInOrder s m entries r).2 = .ok reason

/-- The window of the table after the event was saved in this order. -/
def windowIn (e : RowEvent) (s : TopicSettings) (m : Message) (r : TableRegistry)
    (entries : List (String × Json)) (key : String) : Window :=
  (e.attempted s (r.getOrNew e.tableId s.topic) entries).take ⟨key, rowIn entries, e.isDelete⟩
    e.time m

/-- Two values of an event whose names come to one in normal form. -/
structure Twins (e : RowEvent) (u v : String × Json) : Prop where
  /-- The first value. -/
  left : u ∈ e.data.toList
  /-- The second value. -/
  right : v ∈ e.data.toList
  /-- Their names. -/
  same : ColumnName.normalize u.1 = ColumnName.normalize v.1

section Orders

variable {e : RowEvent} {s : TopicSettings} {m : Message} {r : TableRegistry}
  {entries entries' : List (String × Json)}

/-- A column has no value in the row of any order, or it has one of those under its name. -/
theorem get?_rowIn_cases (perm : entries.Perm e.data.toList) (perm' : entries'.Perm e.data.toList)
    (n : String) :
    ((rowIn entries).get? n = none ∧ (rowIn entries').get? n = none) ∨
      ∃ u v, e.Twins u v ∧ ColumnName.normalize u.1 = n ∧
        (rowIn entries).get? n = some u.2.collapsed ∧
        (rowIn entries').get? n = some v.2.collapsed := by
  have transfer : ∀ {l l' : List (String × Json)}, l.Perm l' → ∀ {x},
      (rowIn l).get? n = some x → ∃ y, (rowIn l').get? n = some y := by
    intro l l' perm x hx
    obtain ⟨v, mem, rfl, -⟩ := get?_rowIn_eq_some hx
    exact get?_rowIn_of_mem (perm.mem_iff.1 mem)
  have both : entries.Perm entries' := perm.trans perm'.symm
  cases hx : (rowIn entries).get? n with
  | none =>
    refine .inl ⟨rfl, Option.eq_none_iff_forall_ne_some.2 fun y hy => ?_⟩
    obtain ⟨x, there⟩ := transfer both.symm hy
    rw [hx] at there
    cases there
  | some x =>
    obtain ⟨y, hy⟩ := transfer both hx
    obtain ⟨u, hu, same, rfl⟩ := get?_rowIn_eq_some hx
    obtain ⟨v, hv, same', rfl⟩ := get?_rowIn_eq_some hy
    exact .inr ⟨u, v, ⟨perm.mem_iff.1 hu, perm'.mem_iff.1 hv, same.trans same'.symm⟩, same, rfl, hy⟩

/-- Whether the row has a key does not depend on the order. -/
theorem keyIn_isOk_iff (perm : entries.Perm e.data.toList) :
    (∃ key, e.keyIn entries = .ok key) ↔ ∃ key, e.savedKey = .ok key := by
  rw [savedKey_eq, keyIn, keyIn, keyOf_isOk_iff, keyOf_isOk_iff]
  refine forall₂_congr fun n _ => ?_
  rw [Row.keyText?, Row.keyText?]
  rcases get?_rowIn_cases perm (.refl _) n with ⟨hn, hn'⟩ | ⟨u, v, -, -, hu, hv⟩
  · rw [hn, hn']
  · rw [hu, hv]
    simp

/-- All values of an event that can be saved are visited, in any order. -/
theorem Savable.visits (h : e.Savable) (perm : entries.Perm e.data.toList)
    (columns : ColumnRegistry) :
    (visit e.hints columns .empty entries).2 = .ok (rowIn entries) := by
  have named : ∀ v ∈ entries, v.2.standsForUnavailable →
      (ColumnName.normalize v.1).isEmpty = false := fun v mem => h.named v (perm.mem_iff.1 mem)
  obtain ⟨row, visits⟩ := (visit_isOk_iff e.hints columns .empty).2 named
  rw [visits, visit_row visits]
  rfl

/-- An event that can be saved leaves its window, in any order. -/
theorem saveInOrder_ok (savable : e.Savable) (perm : entries.Perm e.data.toList) {key : String}
    (hkey : e.keyIn entries = .ok key) :
    e.saveInOrder s m entries r =
      (r.putWindow e.tableId s.topic (e.windowIn s m r entries key),
        .ok ((e.windowIn s m r entries key).flushReason? r.thresholds)) := by
  unfold keyIn at hkey
  simp only [saveInOrder, savable.valid, TableRegistry.getOrNew_register, thresholds_register,
    saveInto, savable.visits perm, hkey, Except.bind, Except.map]
  rfl

/-- Whether an event is saved does not depend on the order. -/
theorem saves_iff (perm : entries.Perm e.data.toList) : e.Saves s m r entries ↔ e.Savable := by
  unfold Saves
  rw [saveInOrder_isOk_iff, keyIn_isOk_iff perm]
  constructor
  · rintro ⟨valid, keyed, named⟩
    exact ⟨valid, keyed, fun v mem => named v (perm.mem_iff.2 mem)⟩
  · rintro ⟨valid, keyed, named⟩
    exact ⟨valid, keyed, fun v mem => named v (perm.mem_iff.1 mem)⟩

theorem content_saveInOrder (savable : e.Savable) (perm : entries.Perm e.data.toList) {key : String}
    (hkey : e.keyIn entries = .ok key) :
    (e.saveInOrder s m entries r).1.content e.tableId = some (e.windowIn s m r entries key) := by
  have filled : (e.windowIn s m r entries key).isEmpty = false :=
    Window.isEmpty_record_insert _ _ _ _ _ _
  rw [saveInOrder_ok savable perm hkey, TableRegistry.content_putWindow_self, filled,
    if_neg Bool.false_ne_true]

/-- The windows that two orders leave match if and only if the row is stored as the same row, and
the same is told of every column. -/
theorem matches_windowIn_iff {key : String} :
    (e.windowIn s m r entries key).Matches (e.windowIn s m r entries' key) ↔
      let w := e.windowFor s (r.getOrNew e.tableId s.topic)
      w.stored ⟨key, rowIn entries, e.isDelete⟩ = w.stored ⟨key, rowIn entries', e.isDelete⟩ ∧
        ∀ n, (visit e.hints w.columns .empty entries).1.facts? n =
          (visit e.hints w.columns .empty entries').1.facts? n := by
  have same : (e.attempted s (r.getOrNew e.tableId s.topic) entries).SameRows
      (e.attempted s (r.getOrNew e.tableId s.topic) entries') := ⟨rfl, rfl, rfl, rfl⟩
  exact Window.matches_take_iff same

end Orders

/-! ## Orders that come to the same -/

/-- Two orders make no difference to the saving of an event: it is saved in both or in none, and if
it is, its row goes under one key, and the windows match. -/
structure SavesAlike (e : RowEvent) (s : TopicSettings) (m : Message) (r : TableRegistry)
    (entries entries' : List (String × Json)) : Prop where
  /-- The event is saved in both orders or in none. -/
  outcome : e.Saves s m r entries ↔ e.Saves s m r entries'
  /-- If it is, the key is the same, and so is what the table has then. -/
  leaves : e.Saves s m r entries → ∃ key w w',
    e.keyIn entries = .ok key ∧ e.keyIn entries' = .ok key ∧
      (e.saveInOrder s m entries r).1.content e.tableId = some w ∧
      (e.saveInOrder s m entries' r).1.content e.tableId = some w' ∧ w.Matches w'

/-- The values of an event under names that come to one make no difference to a window, in which the
row is saved under a key. -/
structure Settled (e : RowEvent) (w : Window) (key : String) : Prop where
  /-- Under a primary key they have one text. -/
  keys : ∀ u v, e.Twins u v → ColumnName.normalize u.1 ∈ e.primaryKeys →
    u.2.collapsed.keyText = v.2.collapsed.keyText
  /-- They come to one value when they are laid over what is there. -/
  values : ∀ u v, e.Twins u v →
    Json.overlay (w.beneath? key (ColumnName.normalize u.1)) (some u.2.collapsed) =
      Json.overlay (w.beneath? key (ColumnName.normalize u.1)) (some v.2.collapsed)
  /-- They do not suggest different kinds for a column that is open. -/
  kinds : ∀ u v, e.Twins u v →
    IsOpen (ColumnName.normalize u.1) (w.columns.facts? (ColumnName.normalize u.1)) →
    Concur e.hints u v

section Alike

variable {e : RowEvent} {s : TopicSettings} {m : Message} {r : TableRegistry}
  {entries entries' : List (String × Json)} {key : String}

/-- The key does not depend on the order. -/
theorem keyIn_of_settled {w : Window} (settled : e.Settled w key)
    (perm : entries.Perm e.data.toList) (hkey : e.savedKey = .ok key) :
    e.keyIn entries = .ok key := by
  rw [savedKey_eq] at hkey
  refine keyOf_congr (fun n mem => ?_) hkey
  rw [Row.keyText?, Row.keyText?]
  rcases get?_rowIn_cases (.refl _) perm n with ⟨hn, hn'⟩ | ⟨u, v, twins, rfl, hu, hv⟩
  · rw [hn, hn']
  · rw [hu, hv, Option.map_some, Option.map_some, settled.keys u v twins mem]

/-- Nor does the row, as it is stored. -/
theorem stored_of_settled {w : Window} (settled : e.Settled w key)
    (perm : entries.Perm e.data.toList) (perm' : entries'.Perm e.data.toList) :
    w.stored ⟨key, rowIn entries, e.isDelete⟩ = w.stored ⟨key, rowIn entries', e.isDelete⟩ := by
  refine SortedMap.ext_get? fun n => ?_
  rw [Window.get?_stored, Window.get?_stored]
  rcases get?_rowIn_cases perm perm' n with ⟨hn, hn'⟩ | ⟨u, v, twins, rfl, hu, hv⟩
  · rw [hn, hn']
  · rw [hu, hv, settled.values u v twins]

/-- Nor does what is told of the columns. -/
theorem facts?_of_settled {w : Window} (savable : e.Savable) (settled : e.Settled w key)
    (perm : entries.Perm e.data.toList) (perm' : entries'.Perm e.data.toList) (n : String) :
    (visit e.hints w.columns .empty entries).1.facts? n =
      (visit e.hints w.columns .empty entries').1.facts? n := by
  rw [facts?_visit (savable.visits perm _), facts?_visit (savable.visits perm' _)]
  have mem_under : ∀ v ∈ under n entries, v ∈ e.data.toList ∧ ColumnName.normalize v.1 = n := by
    intro v mem
    obtain ⟨mem, here⟩ := List.mem_filter.1 mem
    exact ⟨perm.mem_iff.1 mem, eq_of_beq here⟩
  refine ColumnRegistry.foldl_see_perm ((perm.trans perm'.symm).filter _) ?_ ?_
  · intro v mem unavailable empty
    obtain ⟨mem, here⟩ := mem_under v mem
    have named := savable.named v mem unavailable
    simp [here, empty] at named
  · intro isOpen u hu v hv
    obtain ⟨mem, rfl⟩ := mem_under u hu
    obtain ⟨mem', same⟩ := mem_under v hv
    exact settled.kinds u v ⟨mem, mem', same.symm⟩ isOpen

/-- Orders make no difference to values that are settled. -/
theorem savesAlike_of_settled
    (settled : e.Savable → ∀ key, e.savedKey = .ok key →
      e.Settled (e.windowFor s (r.getOrNew e.tableId s.topic)) key)
    (perm : entries.Perm e.data.toList) (perm' : entries'.Perm e.data.toList) :
    e.SavesAlike s m r entries entries' := by
  refine ⟨(saves_iff perm).trans (saves_iff perm').symm, fun saves => ?_⟩
  have savable := (saves_iff perm).1 saves
  obtain ⟨key, hkey⟩ := savable.keyed
  have settled := settled savable key hkey
  have hkey₁ := keyIn_of_settled settled perm hkey
  have hkey₂ := keyIn_of_settled settled perm' hkey
  refine ⟨key, _, _, hkey₁, hkey₂, content_saveInOrder savable perm hkey₁,
    content_saveInOrder savable perm' hkey₂, matches_windowIn_iff.2 ⟨?_, fun n => ?_⟩⟩
  · exact stored_of_settled settled perm perm'
  · exact facts?_of_settled savable settled perm perm' n

/-- Two orders that make no difference leave one key, one row as it is stored, and the same
columns. -/
theorem SavesAlike.parts (h : e.SavesAlike s m r entries entries') (savable : e.Savable)
    (perm : entries.Perm e.data.toList) (perm' : entries'.Perm e.data.toList) :
    ∃ key, e.keyIn entries = .ok key ∧ e.keyIn entries' = .ok key ∧
      (e.windowIn s m r entries key).Matches (e.windowIn s m r entries' key) := by
  obtain ⟨key, w, w', hkey, hkey', hw, hw', alike⟩ := h.leaves ((saves_iff perm).2 savable)
  rw [content_saveInOrder savable perm hkey] at hw
  rw [content_saveInOrder savable perm' hkey'] at hw'
  obtain rfl := Option.some.inj hw
  obtain rfl := Option.some.inj hw'
  exact ⟨key, hkey, hkey', alike⟩

/-- In every order the key is this one, and the window is alike. -/
def Indifferent (e : RowEvent) (s : TopicSettings) (m : Message) (r : TableRegistry)
    (key : String) : Prop :=
  ∀ entries entries', entries.Perm e.data.toList → entries'.Perm e.data.toList →
    e.keyIn entries = .ok key ∧
      (e.windowIn s m r entries key).Matches (e.windowIn s m r entries' key)

theorem indifferent_of_savesAlike (savable : e.Savable) (hkey : e.savedKey = .ok key)
    (alike : ∀ entries entries', entries.Perm e.data.toList → entries'.Perm e.data.toList →
      e.SavesAlike s m r entries entries') : e.Indifferent s m r key := by
  intro entries entries' perm perm'
  obtain ⟨_, start, hl, -⟩ := (alike _ _ (.refl _) perm).parts savable (.refl _) perm
  obtain rfl := Except.ok.inj (hkey.symm.trans start)
  obtain ⟨_, hl', -, same⟩ := (alike entries entries' perm perm').parts savable perm perm'
  obtain rfl := Except.ok.inj (hl.symm.trans hl')
  exact ⟨hl, same⟩

/-- Any value of a list may come first in an order of it. -/
theorem exists_perm_cons {entries : List (String × Json)} {v : String × Json} (mem : v ∈ entries) :
    ∃ rest, (v :: rest).Perm entries := by
  obtain ⟨before, after, split⟩ := List.append_of_mem mem
  refine ⟨before ++ after, ?_⟩
  rw [split]
  exact List.perm_middle.symm

/-- Two different values of an event may come first in an order. -/
theorem Twins.exists_first {u v : String × Json} (h : e.Twins u v) (ne : u ≠ v) :
    ∃ rest, (u :: v :: rest).Perm e.data.toList := by
  obtain ⟨others, first⟩ := exists_perm_cons h.left
  have mem : v ∈ others :=
    (List.mem_cons.1 (first.mem_iff.2 h.right)).resolve_left (Ne.symm ne)
  obtain ⟨rest, second⟩ := exists_perm_cons mem
  exact ⟨rest, (second.cons u).trans first⟩

/-- Of two different values that come last in an order, each may be the last one. -/
theorem Twins.exists_last {u v : String × Json} (h : e.Twins u v) (ne : u ≠ v) :
    ∃ rest, (rest ++ [v, u]).Perm e.data.toList ∧ (rest ++ [u, v]).Perm e.data.toList := by
  obtain ⟨rest, perm⟩ := h.exists_first ne
  have back : (rest ++ [u, v]).Perm e.data.toList := List.perm_append_comm.trans perm
  exact ⟨rest, ((List.Perm.swap u v []).append_left rest).trans back, back⟩

namespace Indifferent

variable {u v : String × Json}

theorem keys (h : e.Indifferent s m r key) (twins : e.Twins u v)
    (mem : ColumnName.normalize u.1 ∈ e.primaryKeys) :
    u.2.collapsed.keyText = v.2.collapsed.keyText := by
  by_cases ne : u = v
  · rw [ne]
  obtain ⟨rest, perm, perm'⟩ := twins.exists_last ne
  have row := get?_rowIn_last twins.same rest
  have row' := get?_rowIn_last twins.same.symm rest
  rw [← twins.same] at row'
  have others : ∀ n ∈ e.primaryKeys, n ≠ ColumnName.normalize u.1 →
      Row.keyText? (rowIn (rest ++ [v, u])) n = Row.keyText? (rowIn (rest ++ [u, v])) n := by
    intro n _ other
    rw [Row.keyText?, Row.keyText?, row, row', if_neg other, if_neg other]
  have texts := text_eq_of_others (h _ _ perm perm').1 (h _ _ perm' perm).1 others mem
  rw [Row.keyText?, Row.keyText?, row, row', if_pos rfl, if_pos rfl] at texts
  exact Option.some.inj texts

theorem values (h : e.Indifferent s m r key) (twins : e.Twins u v) :
    let w := e.windowFor s (r.getOrNew e.tableId s.topic)
    Json.overlay (w.beneath? key (ColumnName.normalize u.1)) (some u.2.collapsed) =
      Json.overlay (w.beneath? key (ColumnName.normalize u.1)) (some v.2.collapsed) := by
  by_cases ne : u = v
  · rw [ne]
  obtain ⟨rest, perm, perm'⟩ := twins.exists_last ne
  have stored := congrArg (SortedMap.get? · (ColumnName.normalize u.1))
    (matches_windowIn_iff.1 (h _ _ perm perm').2).1
  rwa [Window.get?_stored, Window.get?_stored, get?_rowIn_last twins.same,
    get?_rowIn_last twins.same.symm, ← twins.same, if_pos rfl, if_pos rfl] at stored

theorem kinds (h : e.Indifferent s m r key) (savable : e.Savable) (twins : e.Twins u v)
    (isOpen : IsOpen (ColumnName.normalize u.1)
      ((e.windowFor s (r.getOrNew e.tableId s.topic)).columns.facts?
        (ColumnName.normalize u.1))) : Concur e.hints u v := by
  intro kind kind' suggests suggests'
  by_cases ne : u = v
  · rw [← suggests.inferred, ← suggests'.inferred, ne]
  obtain ⟨rest, perm⟩ := twins.exists_first ne
  have perm' : (v :: u :: rest).Perm e.data.toList := (List.Perm.swap u v rest).trans perm
  have facts := (matches_windowIn_iff.1 (h _ _ perm perm').2).2 (ColumnName.normalize u.1)
  obtain ⟨g, hg, first⟩ := ColumnRegistry.foldl_see_of_first isOpen suggests
    (under (ColumnName.normalize u.1) (v :: rest))
  obtain ⟨g', hg', first'⟩ := ColumnRegistry.foldl_see_of_first isOpen suggests'
    (under (ColumnName.normalize u.1) (u :: rest))
  rw [facts?_visit (savable.visits perm _), facts?_visit (savable.visits perm' _),
    under_cons rfl, under_cons twins.same.symm (u :: rest), hg, hg'] at facts
  rw [← first, ← first', Option.some.inj facts]

end Indifferent

/-- The order in which the values of an event are visited makes no difference if and only if the
event cannot be saved, or its values under names that come to one make no difference. -/
theorem savesAlike_iff (e : RowEvent) (s : TopicSettings) (m : Message) (r : TableRegistry) :
    (∀ entries entries', entries.Perm e.data.toList → entries'.Perm e.data.toList →
        e.SavesAlike s m r entries entries') ↔
      (e.Savable → ∀ key, e.savedKey = .ok key →
        e.Settled (e.windowFor s (r.getOrNew e.tableId s.topic)) key) := by
  constructor
  · intro alike savable key hkey
    have indifferent := indifferent_of_savesAlike savable hkey alike
    exact ⟨fun u v twins mem => indifferent.keys twins mem, fun u v => indifferent.values,
      fun u v => indifferent.kinds savable⟩
  · exact fun settled entries entries' perm perm' => savesAlike_of_settled settled perm perm'

/-- In particular it makes none if the names are distinct in normal form. -/
theorem savesAlike_of_distinct (distinct : (e.data.keys.map ColumnName.normalize).Nodup)
    (perm : entries.Perm e.data.toList) (perm' : entries'.Perm e.data.toList) :
    e.SavesAlike s m r entries entries' := by
  have alone : ∀ u v, e.Twins u v → u = v := by
    intro u v twins
    have names := distinct
    rw [SortedMap.keys, List.map_map] at names
    exact List.inj_on_of_nodup_map names twins.left twins.right twins.same
  refine savesAlike_of_settled (fun _ key _ => ⟨?_, ?_, ?_⟩) perm perm'
  · intro u v twins _
    rw [alone u v twins]
  · intro u v twins
    rw [alone u v twins]
  · intro u v twins _ kind kind' suggests suggests'
    rw [← suggests.inferred, ← suggests'.inferred, alone u v twins]

end Alike

/-! ## A sample -/

/-- The settings of a topic. -/
def doubledSettings : TopicSettings := Sample.settings "orders"

/-- An order with two columns for its number is added. -/
def doubledChange : Change :=
  Sample.change "orders" .create (some (.ofList [("ID", .int 2), ("id", .string "one")]))

/-- Its event. -/
def doubled : RowEvent where
  table := "orders"
  tableId := ⟨"public", "orders"⟩
  data := .ofList [("ID", .int 2), (SystemColumn.deleted, .bool false), ("id", .string "one")]
  hints := none
  columns := none
  isDelete := false
  primaryKeys := ["id"]
  time := .ofMillis Sample.millis
  mode := .replication

/-- The order decides on the key of an event that has two columns for it. -/
theorem save_depends_on_order :
    let m := Sample.message "orders" 0 .empty .empty
    let entries := doubled.data.toList
    doubledSettings.validate = .ok () ∧
      ofChange doubledSettings .replication ⟨0⟩ (.ofList [("id", .int 2)]) doubledChange =
        .ok doubled ∧
      doubled.Savable ∧
      doubled.keyIn entries = .ok "id=one" ∧ doubled.keyIn entries.reverse = .ok "id=2" ∧
      entries.reverse.Perm entries ∧
      ¬ doubled.SavesAlike doubledSettings m (.new .default) entries entries.reverse := by
  intro m entries
  have perm : entries.reverse.Perm entries := List.reverse_perm entries
  have savable : doubled.Savable := ⟨rfl, ⟨_, rfl⟩, by decide +kernel⟩
  refine ⟨rfl, ?_, savable, rfl, rfl, perm, fun alike => ?_⟩
  · have names : doubledSettings.keyNames (.ofList [("id", .int 2)]) = ["id"] := by decide +kernel
    have sorted : TopicSettings.sortNames ["id"] = ["id"] := List.mergeSort_singleton "id"
    simp only [ofChange, names, sorted]
    rfl
  · obtain ⟨key, -, -, hkey, hkey', -⟩ := alike.leaves ((saves_iff (.refl _)).2 savable)
    have same : "id=one" = "id=2" := Except.ok.inj (hkey.trans hkey'.symm)
    revert same
    decide

end RowEvent

end ChangeCapture
