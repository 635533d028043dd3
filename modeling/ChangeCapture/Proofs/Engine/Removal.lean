import ChangeCapture.Proofs.Debezium.Envelope
import ChangeCapture.Proofs.Engine.Appends
import ChangeCapture.Proofs.Engine.Topics

/-!
# What removes a row

Whether a message deletes its row is a matter of the row after the change, and
not of the code of its operation (`RowEvent.mark_eq_true_iff`).  So a row that is
stored goes away only after a message without such a row was taken in for its
key, or one whose row passes a column off as the mark of the delete
(`Run.only_rowless_messages_remove`).

A row that is stored lasts as long as no buffered row of its key is marked for
removal (`Engine.Lasts`).  The step that brings a row in leaves it lasting.
-/

namespace ChangeCapture

/-! ## Messages and events -/

namespace Debezium

/-- Whether a message value reports a change with no row after it, or an empty one. -/
def lacksRow (value : ByteArray) : Bool :=
  ((Json.readBytes? value).bind envelope?).any fun (_, payload) =>
    payload.after.all SortedMap.isEmpty

/-- The code of the operation that a message value reports. -/
def operationCode? (value : ByteArray) : Option String :=
  ((Json.readBytes? value).bind envelope?).map fun (_, payload) => payload.operation

theorem isDelete_of_readValue {value : ByteArray} {c : Change} (h : readValue value = .ok c) :
    c.isDelete = lacksRow value := by
  unfold readValue at h
  unfold lacksRow
  split at h
  · cases h
  · rename_i schema payload decoded
    rw [decoded, isDelete_of_changeOf h]
    rfl

end Debezium

namespace RowEvent

/-- A column of the event that is not the mark of the delete is written as the mark, and true. -/
def Disguised (e : RowEvent) : Prop :=
  ∃ n, n ≠ SystemColumn.deleted ∧ ColumnName.normalize n = SystemColumn.deleted ∧
    e.data.get? n = some (.bool true)

/-- What the event of a message is made from. -/
theorem ofMessage_parts {s : TopicSettings} {mode : Mode} {now : Instant} {m : Message}
    {e : RowEvent} (h : ofMessage s mode now m = .ok (some e)) :
    ∃ key c, Debezium.readValue (m.value.getD .empty) = .ok c ∧
      ofChange s mode now key c = .ok e := by
  unfold ofMessage at h
  split at h
  · cases h
  · split at h
    · cases h
    · obtain ⟨key, -, h⟩ := Outcome.bind_eq_ok.1 h
      obtain ⟨c, hc, h⟩ := Outcome.bind_eq_ok.1 h
      cases shaped : ofChange s mode now key c with
      | error f => simp [shaped, Functor.map, Except.map] at h
      | ok e' =>
        obtain rfl : e' = e := by simpa [shaped, Functor.map, Except.map] using h
        exact ⟨key, c, hc, shaped⟩

/-- A row that is saved with a true mark comes from a message without a row, or it has a column
that passes for the mark. -/
theorem lacksRow_of_isDeleted {s : TopicSettings} {mode : Mode} {now : Instant} {m : Message}
    {e : RowEvent} (h : ofMessage s mode now m = .ok (some e)) (marked : e.savedRow.isDeleted) :
    Debezium.lacksRow (m.value.getD .empty) ∨ e.Disguised := by
  obtain ⟨key, c, decoded, shaped⟩ := ofMessage_parts h
  obtain ⟨v, hv, true⟩ := Option.any_eq_true _ _ |>.1 marked
  obtain ⟨⟨n, u⟩, mem, normal, rfl⟩ := mem_of_savedRow hv
  obtain rfl : u = .bool .true := by
    unfold Json.collapsed at true
    split at true
    · cases true
    · cases u <;> simp [Json.isTrue] at true
      rw [true]
  have hn := SortedMap.get?_eq_some_iff.2 mem
  by_cases mark : n = SystemColumn.deleted
  · subst mark
    rw [← Debezium.isDelete_of_readValue decoded]
    exact .inl ((mark_eq_true_iff shaped).1 hn).2.1
  · exact .inr ⟨n, mark, normal, hn⟩

end RowEvent

/-! ## Windows that remove rows -/

namespace Window

/-- Whether the window removes the row of a key from the store. -/
def removes (w : Window) (key : String) : Bool :=
  !w.settings.softDelete && (w.keyed.get? key).any Row.isDeleted

/-- A window removes what it removed before, and the key of a marked row. -/
theorem removes_insert {w : Window} {key k : String} {row : Row} {deleted : Bool}
    (h : (w.insert key row deleted).removes k) : w.removes k ∨ k = key ∧ row.isDeleted := by
  unfold insert at h
  split at h
  · simp only [removes, upsert, Bool.and_eq_true] at h ⊢
    obtain ⟨hard, marked⟩ := h
    rw [SortedMap.get?_insert] at marked
    split at marked
    · rename_i same
      subst same
      have marked : (Tracks.layer (w.keyed.get? k) row).isDeleted := marked
      obtain ⟨v, layered, true⟩ := Option.any_eq_true _ _ |>.1 marked
      rw [Tracks.get?_layer] at layered
      rcases Json.mem_overlay layered with earlier | here
      · obtain ⟨previous, found, hv⟩ := Option.bind_eq_some_iff.1 earlier
        refine .inl ⟨hard, ?_⟩
        rw [found, Option.any_some, Row.isDeleted, hv]
        exact true
      · refine .inr ⟨rfl, ?_⟩
        rw [Row.isDeleted, here]
        exact true
    · exact .inl ⟨hard, marked⟩
  · exact .inl h

end Window

namespace RowEvent

/-- What the window of a saved event removes, the window before removed, or the event is marked. -/
theorem removes_stored {e : RowEvent} {s : TopicSettings} {m : Message} {r : TableRegistry}
    {key k : String} (h : (e.stored s m r key).removes k) :
    (∃ w, r.content e.tableId = some w ∧ w.removes k) ∨ k = key ∧ e.savedRow.isDeleted := by
  have inserted : ((e.opened s r).insert key e.savedRow e.isDelete).removes k := by
    have settings := (e.stored_frame s m r key).1
    unfold Window.removes at h ⊢
    rw [settings] at h
    have keyed : (e.stored s m r key).keyed =
        ((e.opened s r).insert key e.savedRow e.isDelete).keyed := Window.keyed_observe _ _
    rw [keyed] at h
    have same : ((e.opened s r).insert key e.savedRow e.isDelete).settings =
        (e.opened s r).settings := by
      unfold Window.insert
      split <;> rfl
    rwa [same]
  refine (Window.removes_insert inserted).imp_left fun opened => ?_
  rcases e.opened_cases s r with ⟨-, fresh⟩ | ⟨b, w, holds, old⟩
  · rw [fresh] at opened
    simp [Window.removes, Window.new] at opened
  · rw [old] at opened
    exact ⟨w, holds.content, opened⟩

end RowEvent

/-! ## Rows in the store -/

/-- Whether a table has a row. -/
def Store.hasRow (s : Store) (p : TablePath) (key : String) : Bool :=
  (s.table p).rows.contains key

namespace StoredTable

/-- After a merge the rows of the window are there unless they are removed. -/
theorem contains_merge (t : StoredTable) (w : Window) (key : String) :
    (t.merge w).rows.contains key =
      if w.keyed.contains key then !w.removes key else t.rows.contains key := by
  unfold SortedMap.contains Window.removes
  rw [get?_merge]
  cases w.keyed.get? key with
  | none => rfl
  | some row =>
    rw [Option.any_some]
    cases marked : row.isDeleted <;> cases w.settings.softDelete <;> simp [marked]

end StoredTable

namespace Store

theorem hasRow_merge_self (s : Store) (w : Window) (key : String) :
    (s.merge w).hasRow w.path key =
      if w.keyed.contains key then !w.removes key else s.hasRow w.path key := by
  rw [hasRow, table_merge_self, StoredTable.contains_merge]
  rfl

/-- An append leaves the merged rows alone. -/
theorem hasRow_append {s s' : Store} {w : Window} (h : s.append w = .ok s') (p : TablePath)
    (key : String) : s'.hasRow p key = s.hasRow p key := by
  by_cases same : p = w.path
  · subst same
    unfold append at h
    split at h
    · cases h
    · obtain rfl := Except.ok.inj h
      show ((s.tables.insert w.path _).getD w.path .empty).rows.contains key = _
      rw [SortedMap.getD_insert, if_pos rfl]
      rfl
  · rw [hasRow, table_append_of_ne h same]
    rfl

end Store

/-- A write that does not fail leaves a row of a table as it is, or the window is of the table and
decides whether the row is there. -/
theorem TrialStore.hasRow_write {s s' : TrialStore} {w : Window} {b : Bool}
    (h : Destination.write s w = (.ok b, s')) (p : TablePath) (key : String) :
    s'.store.hasRow p key = s.store.hasRow p key ∨
      w.path = p ∧ s'.store.hasRow p key = !w.removes key := by
  by_cases same : p = w.path
  · subst same
    rcases write_cases h with ⟨⟨f, hf⟩, -⟩ | ⟨-, written⟩
    · cases hf
    · cases hm : w.mode with
      | replication =>
        rw [hm] at written
        rw [written, Store.hasRow_merge_self]
        split
        · exact .inr ⟨rfl, rfl⟩
        · exact .inl rfl
      | history =>
        rw [hm] at written
        exact .inl (Store.hasRow_append written w.path key)
  · refine .inl ?_
    rw [Store.hasRow, table_write_of_ne h same]
    rfl

/-! ## Rows that last -/

/-- Every window stands at the place of its table. -/
structure TableRegistry.Housed (r : TableRegistry) : Prop where
  /-- Every buffer stands under the name of its table. -/
  named : r.Named
  /-- Every window with rows stands at the place of its table. -/
  placed : ∀ t w, r.content t = some w → w.path.schema = t.schema ∧ w.path.name = t.name

theorem TableRegistry.Housed.descends {r r' : TableRegistry} (h : r.Housed) (named : r'.Named)
    (rows : r.Descends r') : r'.Housed := by
  refine ⟨named, fun t v hv => ?_⟩
  obtain ⟨w, columns, hw, rfl⟩ := rows t v hv
  exact h.placed t w hw

namespace Engine

variable {p : TablePath} {key : String} {e e' : Engine (Ledger TrialStore) MessageQueue}

/-- Whether a row is stored. -/
def hasRow (e : Engine (Ledger TrialStore) MessageQueue) (p : TablePath) (key : String) : Bool :=
  e.destination.destination.store.hasRow p key

/-- If the row is stored, no window of its table removes it. -/
def Lasts (e : Engine (Ledger TrialStore) MessageQueue) (p : TablePath) (key : String) : Prop :=
  e.hasRow p key → ∀ w, e.registry.content ⟨p.schema, p.name⟩ = some w → w.removes key = false

theorem Lasts.descends (h : e.Lasts p key) (rows : e.registry.Descends e'.registry)
    (same : e'.hasRow p key = e.hasRow p key) : e'.Lasts p key := by
  intro stored v hv
  obtain ⟨w, columns, hw, rfl⟩ := rows _ v hv
  exact h (same ▸ stored) w hw

/-- The flush of a table leaves a row as it is, or a window of the table of the row decides whether
it is there. -/
theorem TableStep.hasRow_cases {t : TableId} {cooldown : Option Nat} {now : Nat}
    {outcome : Outcome TableFlush} (step : TableStep e t cooldown now e' outcome) (p : TablePath)
    (key : String) :
    e'.hasRow p key = e.hasRow p key ∨
      ∃ w, e.registry.content t = some w ∧ w.path = p ∧ e'.hasRow p key = !w.removes key := by
  have probed : ∀ {w : Window} {l : Ledger TrialStore}, Destination.Probes w e.destination l →
      l.destination.store = e.destination.destination.store := fun probes =>
    TrialStore.store_probes (Ledger.probes_destination probes)
  have written : ∀ {b : TableBuffer} {w : Window} {known : ColumnRegistry} {commits : Bool}
      {l l' : Ledger TrialStore}, e.registry.Holds t b w →
      Destination.Tells e.destination w known l →
      Destination.write l (w.adopt known) = (.ok commits, l') →
      l'.destination.store.hasRow p key = e.hasRow p key ∨
        ∃ w, e.registry.content t = some w ∧ w.path = p ∧
          l'.destination.store.hasRow p key = !w.removes key := by
    intro b w known commits l l' holds tells write
    rcases TrialStore.hasRow_write (Ledger.write_destination write) p key with
      same | ⟨path, decides⟩
    · rw [same, probed tells.probes]
      exact .inl rfl
    · exact .inr ⟨w, holds.content, path, decides⟩
  cases step with
  | nothing _ => exact .inl rfl
  | cooled _ _ _ => exact .inl rfl
  | unknown _ probes _ => exact .inl (congrArg (·.hasRow p key) (probed probes))
  | failed _ tells _ => exact .inl (congrArg (·.hasRow p key) (probed tells.probes))
  | denied holds tells write => exact written holds tells write
  | written holds tells write _ => exact written holds tells write

/-- The flush of a table leaves a row lasting, and leaves it there if it lasted. -/
theorem TableStep.lasts (housed : e.registry.Housed) (h : e.Lasts p key) {t : TableId}
    {cooldown : Option Nat} {now : Nat} {outcome : Outcome TableFlush}
    (step : TableStep e t cooldown now e' outcome) :
    e'.Lasts p key ∧ (e.hasRow p key → e'.hasRow p key) := by
  have rows := step.descends housed.named
  rcases step.hasRow_cases p key with same | ⟨w, hw, rfl, decides⟩
  · exact ⟨h.descends rows same, fun stored => same ▸ stored⟩
  · obtain ⟨schema, name⟩ := housed.placed t w hw
    have here : (⟨w.path.schema, w.path.name⟩ : TableId) = t := by rw [schema, name]
    refine ⟨fun stored v hv => ?_, fun stored => ?_⟩
    · obtain ⟨w', columns, hw', rfl⟩ := rows _ v hv
      obtain rfl := Option.some.inj (hw'.symm.trans (here ▸ hw))
      rw [decides, Bool.not_eq_true'] at stored
      exact stored
    · rw [decides, h stored w (here ▸ hw)]
      rfl

theorem housed_flush (housed : e.registry.Housed) (order : FlushOrder) (now : Nat) :
    (e.flush order now).state.registry.Housed := by
  have named := flush_induct
    (P := fun e : Engine (Ledger TrialStore) MessageQueue => e.registry.Named) now
    (fun step named => step.named named)
    (fun _ outcomes named => by rwa [(settle_keeps _ _ _ outcomes).1]) e order housed.named
  exact housed.descends named (descends_flush housed.named order now)

/-- A flush leaves a row lasting, and leaves it there if it lasted. -/
theorem lasts_flush (housed : e.registry.Housed) (h : e.Lasts p key) (order : FlushOrder)
    (now : Nat) :
    (e.flush order now).state.Lasts p key ∧
      (e.hasRow p key → (e.flush order now).state.hasRow p key) := by
  suffices kept : (e.flush order now).state.registry.Housed ∧
      (e.flush order now).state.Lasts p key ∧
        (e.hasRow p key → (e.flush order now).state.hasRow p key) from kept.2
  refine flush_induct
    (P := fun e' : Engine (Ledger TrialStore) MessageQueue =>
      e'.registry.Housed ∧ e'.Lasts p key ∧ (e.hasRow p key → e'.hasRow p key)) now
    ?_ (fun {e topic source} _ outcomes kept => ?_) e order ⟨housed, h, id⟩
  · rintro e₁ e₂ t cooldown outcome step ⟨housed, lasts, there⟩
    obtain ⟨lasts', stays⟩ := step.lasts housed lasts
    exact ⟨housed.descends (step.named housed.named) (step.descends housed.named), lasts',
      stays ∘ there⟩
  · obtain ⟨registry, destination⟩ := settle_keeps e topic source outcomes
    unfold Lasts Engine.hasRow at kept ⊢
    rwa [registry, destination]

end Engine

/-! ## Runs -/

/-- The row of a saved message of one of the topics is marked as deleted under a key of a table. -/
structure Saved.Marks (topics : List TopicSettings) (mode : Mode) (p : TablePath) (key : String)
    (x : Saved) : Prop where
  /-- The event was made from the message. -/
  made : ∃ s ∈ topics, ∃ now, x.topic = s.topic ∧
    RowEvent.ofMessage s mode now x.message = .ok (some x.event)
  /-- The event is of the table. -/
  table : x.event.tableId = ⟨p.schema, p.name⟩
  /-- The row has the key. -/
  key : x.event.savedKey = .ok key
  /-- The row is marked. -/
  marked : x.event.savedRow.isDeleted

namespace Run

variable {topics : List TopicSettings} {mode : Mode} {p : TablePath} {key : String}
  {r r' : Run TrialStore}

/-- A step over a store with planned failures. -/
inductive Trial (topics : List TopicSettings) (mode : Mode) : Run TrialStore → Run TrialStore → Prop
    where
  /-- A message is added, one is taken in, or tables are flushed. -/
  | work {r r' : Run TrialStore} (h : Work topics mode r r') : Trial topics mode r r'
  /-- Failures are planned, or denials. -/
  | plan (r : Run TrialStore) (failures : Nat) (tableFailures : SortedMap String Nat)
    (deniesCommits : Bool) : Trial topics mode r (r.plan failures tableFailures deniesCommits)

/-- Steps over a store with planned failures lead from one state to the other. -/
def Trials (topics : List TopicSettings) (mode : Mode) : Run TrialStore → Run TrialStore → Prop :=
  Relation.ReflTransGen (Trial topics mode)

/-- Whether a row is stored. -/
def stores (r : Run TrialStore) (p : TablePath) (key : String) : Bool := r.engine.hasRow p key

/-- The messages that were saved from one state of a run to another one. -/
def savedSince (before r : Run TrialStore) : List Saved := r.saved.drop before.saved.length

/-- The intake of a message of a topic leaves the windows in their places. -/
theorem IngestStep.housed {e e' : Engine (Ledger TrialStore) MessageQueue} {s : TopicSettings}
    {now : Instant} {m : Message} {more : List Saved} (h : IngestStep e s mode now m e' more)
    (housed : e.registry.Housed) : e'.registry.Housed := by
  cases h with
  | skipped => exact housed
  | @refused event =>
    exact housed.descends (housed.named.putWindow _ _ _)
      (e.registry.recolumns_opened event s s.topic).descends
  | @saved event shaped key' hkey =>
    refine ⟨housed.named.putWindow _ _ _, fun t w hw => ?_⟩
    have hw := (e.registry.content_stored event s m key' s.topic t).symm.trans hw
    split at hw
    · rename_i same
      obtain rfl := Option.some.inj hw
      rw [(event.stored_frame s m e.registry key').2.2.1, same]
      exact RowEvent.path_opened (RowEvent.tableId_ofMessage shaped).1 fun b w holds =>
        housed.placed _ w holds.content
    · exact housed.placed t w hw

/-- The intake of a message of a topic leaves a row lasting, or the row that is saved is marked. -/
theorem IngestStep.lasts {e e' : Engine (Ledger TrialStore) MessageQueue} {s : TopicSettings}
    {now : Instant} {m : Message} {more : List Saved} (h : IngestStep e s mode now m e' more)
    (mem : s ∈ topics) (lasts : e.Lasts p key) :
    e'.Lasts p key ∨ ∃ x ∈ more, x.Marks topics mode p key := by
  cases h with
  | skipped => exact .inl lasts
  | @refused event =>
    exact .inl (lasts.descends (e.registry.recolumns_opened event s s.topic).descends rfl)
  | @saved event shaped key' hkey =>
    by_cases marks : event.tableId = ⟨p.schema, p.name⟩ ∧ key = key' ∧ event.savedRow.isDeleted
    · obtain ⟨table, rfl, marked⟩ := marks
      exact .inr ⟨_, List.mem_singleton_self _, ⟨s, mem, now, rfl, shaped⟩, table, hkey, marked⟩
    · refine .inl fun stored w hw => ?_
      have hw := (e.registry.content_stored event s m key' s.topic _).symm.trans hw
      split at hw
      · rename_i same
        obtain rfl := Option.some.inj hw
        rw [Bool.eq_false_iff]
        intro removes
        rcases RowEvent.removes_stored removes with ⟨w, hw, removes⟩ | ⟨rfl, marked⟩
        · rw [lasts stored w (same ▸ hw)] at removes
          cases removes
        · exact marks ⟨same.symm, rfl, marked⟩
      · exact lasts stored w hw

theorem Trial.housed (step : Trial topics mode r r') (housed : r.engine.registry.Housed) :
    r'.engine.registry.Housed := by
  cases step with
  | plan => exact housed
  | work step =>
    cases step with
    | push => exact housed
    | flush order now =>
      exact Engine.housed_flush housed order now
    | @process s mem now =>
      cases hm : r.next? s.topic with
      | none =>
        rw [process_of_none hm]
        exact housed
      | some m =>
        obtain ⟨q, q', more, -, -, step, -⟩ := process_of_message hm mode now
        exact step.housed housed

theorem Trials.housed (run : Trials topics mode r r') (housed : r.engine.registry.Housed) :
    r'.engine.registry.Housed := by
  induction run with
  | refl => exact housed
  | tail _ step ih => exact step.housed ih

/-- A step leaves a row that lasts lasting, and there if it was, or a row that it saves is
marked. -/
theorem Trial.lasts (step : Trial topics mode r r') (housed : r.engine.registry.Housed)
    (p : TablePath) (key : String) :
    ∃ more, r'.saved = r.saved ++ more ∧
      (r.engine.Lasts p key → (∃ x ∈ more, x.Marks topics mode p key) ∨
        r'.engine.Lasts p key ∧ (r.stores p key → r'.stores p key)) := by
  cases step with
  | plan => exact ⟨[], (List.append_nil _).symm, fun lasts => .inr ⟨lasts, id⟩⟩
  | work step =>
    cases step with
    | push => exact ⟨[], (List.append_nil _).symm, fun lasts => .inr ⟨lasts, id⟩⟩
    | flush order now =>
      exact ⟨[], (List.append_nil _).symm, fun lasts =>
        .inr (Engine.lasts_flush housed lasts order now)⟩
    | @process s mem now =>
      cases hm : r.next? s.topic with
      | none =>
        rw [process_of_none hm]
        exact ⟨[], (List.append_nil _).symm, fun lasts => .inr ⟨lasts, id⟩⟩
      | some m =>
        obtain ⟨q, q', more, -, -, step, saved⟩ := process_of_message hm mode now
        refine ⟨more, saved, fun lasts => ?_⟩
        refine (step.lasts mem lasts).symm.imp_right fun lasts => ⟨lasts, fun stored => ?_⟩
        rw [stores, Engine.hasRow, step.frame.1]
        exact stored

/-- A row lasts once a step has brought it in. -/
theorem Trial.lasts_of_enters (step : Trial topics mode r r') (housed : r.engine.registry.Housed)
    (absent : r.stores p key = false) (there : r'.stores p key) : r'.engine.Lasts p key := by
  have same : ∀ {r'' : Run TrialStore}, r''.engine.destination = r.engine.destination →
      ¬ r''.stores p key := by
    intro r'' same
    rw [stores, Engine.hasRow, same]
    exact Bool.eq_false_iff.1 absent
  cases step with
  | plan => exact absurd there (Bool.eq_false_iff.1 absent)
  | work step =>
    cases step with
    | push => exact absurd there (same rfl)
    | flush order now =>
      refine (Engine.lasts_flush housed (fun stored => ?_) order now).1
      exact absurd stored (Bool.eq_false_iff.1 absent)
    | @process s mem now =>
      cases hm : r.next? s.topic with
      | none =>
        rw [process_of_none hm] at there
        exact absurd there (same rfl)
      | some m =>
        obtain ⟨q, q', more, -, -, step, -⟩ := process_of_message hm mode now
        exact absurd there (same step.frame.1)

/-- The row was there at the start of the run, or a step has just brought it in. -/
def Enters (topics : List TopicSettings) (mode : Mode) (before r : Run TrialStore) (p : TablePath)
    (key : String) : Prop :=
  r = before ∨ ∃ r₀, Trials topics mode before r₀ ∧ Trial topics mode r₀ r ∧
    r₀.stores p key = false

theorem housed_start (thresholds : Thresholds) (store : TrialStore)
    (sources : SortedMap String MessageQueue) (retry : RetryPolicy) :
    (start thresholds store sources retry).engine.registry.Housed := by
  refine ⟨fun t b hb => ?_, fun t w hw => ?_⟩
  · cases hb
  · cases hw

theorem Enters.lasts {thresholds : Thresholds} {store : TrialStore}
    {sources : SortedMap String MessageQueue} {retry : RetryPolicy}
    (enters : Enters topics mode (start thresholds store sources retry) r p key)
    (there : r.stores p key) : r.engine.registry.Housed ∧ r.engine.Lasts p key := by
  have starts := housed_start thresholds store sources retry
  rcases enters with rfl | ⟨r₀, run₀, step, absent⟩
  · refine ⟨starts, fun _ w hw => ?_⟩
    cases hw
  · have housed := Trials.housed run₀ starts
    exact ⟨step.housed housed, step.lasts_of_enters housed absent there⟩

/-- From a state in which a row lasts, the row is there in all later states, unless a row that is
marked was saved for it since. -/
theorem Trials.marks_of_gone (run : Trials topics mode r r') (housed : r.engine.registry.Housed)
    (lasts : r.engine.Lasts p key) (there : r.stores p key) :
    ∃ since, r'.saved = r.saved ++ since ∧
      ((∃ x ∈ since, x.Marks topics mode p key) ∨
        r'.engine.Lasts p key ∧ r'.stores p key) := by
  induction run with
  | refl => exact ⟨[], (List.append_nil _).symm, .inr ⟨lasts, there⟩⟩
  | @tail r₁ r₂ run step ih =>
    obtain ⟨since, saved, before⟩ := ih
    obtain ⟨more, saved', after⟩ := step.lasts (Trials.housed run housed) p key
    refine ⟨since ++ more, by rw [saved', saved, List.append_assoc], ?_⟩
    rcases before with ⟨x, mem, marks⟩ | ⟨lasts, there⟩
    · exact .inl ⟨x, List.mem_append_left _ mem, marks⟩
    · rcases after lasts with ⟨x, mem, marks⟩ | ⟨lasts, stays⟩
      · exact .inl ⟨x, List.mem_append_right _ mem, marks⟩
      · exact .inr ⟨lasts, stays there⟩

/-- Only messages without a row remove data.  The mark of the delete is true in an event just if its
message has no row after the change, whatever the code of its operation, and the row is kept by
key with the mark in it.  And a row that was there at the start, or that a step has brought in, is
gone later only if a message was saved for its key since that has no row, or whose row passes a
column off as the mark. -/
theorem only_rowless_messages_remove :
    (∀ (s : TopicSettings) (mode : Mode) (now : Instant) (key : Row) (value : ByteArray)
      (c : Change) (e : RowEvent), Debezium.readValue value = .ok c →
        RowEvent.ofChange s mode now key c = .ok e →
          (e.isDelete ↔ Debezium.lacksRow value) ∧
            (e.data.get? SystemColumn.deleted = some (.bool true) ↔
              mode = .replication ∧ Debezium.lacksRow value ∧
                SystemColumn.deleted ∉ s.columnsToExclude ∧
                SystemColumn.deleted ∉ s.columnsToHash)) ∧
      ∀ (topics : List TopicSettings) (mode : Mode) (thresholds : Thresholds) (store : TrialStore)
        (sources : SortedMap String MessageQueue) (retry : RetryPolicy) (r₁ r : Run TrialStore)
        (p : TablePath) (key : String),
          Enters topics mode (start thresholds store sources retry) r₁ p key →
          Trials topics mode r₁ r → r₁.stores p key → r.stores p key = false →
            ∃ x ∈ r₁.savedSince r, x.Marks topics mode p key ∧
              (Debezium.lacksRow (x.message.value.getD .empty) ∨ x.event.Disguised) := by
  refine ⟨fun s mode now key value c e decoded shaped => ?_, ?_⟩
  · rw [RowEvent.mark_eq_true_iff shaped, (RowEvent.ofChange_parts shaped).2.2.1,
      Debezium.isDelete_of_readValue decoded]
    exact ⟨Iff.rfl, Iff.rfl⟩
  · intro topics mode thresholds store sources retry r₁ r p key enters run there gone
    obtain ⟨housed, lasts⟩ := enters.lasts there
    obtain ⟨since, saved, after⟩ := Trials.marks_of_gone run housed lasts there
    rcases after with ⟨x, mem, marks⟩ | ⟨-, stays⟩
    · obtain ⟨s, -, now, -, shaped⟩ := marks.made
      refine ⟨x, ?_, marks, RowEvent.lacksRow_of_isDeleted shaped marks.marked⟩
      rwa [savedSince, saved, List.drop_left]
    · rw [gone] at stays
      cases stays

/-! ## Sample runs -/

/-- A message about the row with the `id` 1 is pushed and taken in.  It has this code of an
operation, and this row after the change. -/
def sampleReport (r : Run TrialStore) (code after : String) : Run TrialStore :=
  let source := "\x7b\"table\":\"orders\"\x7d"
  let value :=
    "\x7b\"op\":\"" ++ code ++ "\",\"after\":" ++ after ++ ",\"source\":" ++ source ++ "\x7d"
  r.deliver (Sample.settings "orders") .replication ⟨0⟩
    (Sample.message "orders" 0 "\x7b\"id\":1\x7d".toUTF8 value.toUTF8)

/-- A run over one topic before its first message. -/
def sampleEmpty : Run TrialStore :=
  start ⟨10, 100⟩ (.new (.new 1000))
    (SortedMap.empty.insert "orders" (.new "orders" .latestPerPartition)) (.new 0 0 1 fun _ => true)

/-- A row is taken in. -/
def sampleTaken : Run TrialStore := sampleEmpty.sampleReport "c" "\x7b\"id\":1\x7d"

/-- The row is stored. -/
def sampleStored : Run TrialStore := sampleTaken.flush .shutdown 0

/-- A message without a row is taken in for the key, and flushed. -/
def sampleGone (code : String) : Run TrialStore :=
  (sampleStored.sampleReport code "null").flush .shutdown 0

/-- The place of the row. -/
def samplePlace : TablePath := ⟨"shop", "public", "orders"⟩

theorem trials_sampleReport {r r' : Run TrialStore}
    (run : Trials [Sample.settings "orders"] .replication r r') (code after : String) :
    Trials [Sample.settings "orders"] .replication r (r'.sampleReport code after) := by
  refine .tail (.tail run (.work (.push r' "orders" 0 _ _))) (.work (.process _ ?_ ⟨0⟩))
  exact List.mem_singleton_self _

theorem trials_sampleTaken :
    Trials [Sample.settings "orders"] .replication sampleEmpty sampleTaken :=
  trials_sampleReport .refl _ _

theorem trials_sampleGone (code : String) :
    Trials [Sample.settings "orders"] .replication sampleStored (sampleGone code) :=
  .tail (trials_sampleReport .refl _ _) (.work (.flush _ .shutdown 0))

theorem only_rowless_messages_remove_sampleGone :
    (sampleStored.stores samplePlace "id=1" ∧ (sampleGone "d").stores samplePlace "id=1" = false) ∧
      ∃ x ∈ sampleStored.savedSince (sampleGone "d"),
        x.Marks [Sample.settings "orders"] .replication samplePlace "id=1" ∧
          (Debezium.lacksRow (x.message.value.getD .empty) ∨ x.event.Disguised) := by
  have there : sampleStored.stores samplePlace "id=1" := by decide +kernel
  have gone : (sampleGone "d").stores samplePlace "id=1" = false := by decide +kernel
  have enters : Enters [Sample.settings "orders"] .replication sampleEmpty sampleStored samplePlace
      "id=1" :=
    .inr ⟨sampleTaken, trials_sampleTaken, .work (.flush _ .shutdown 0), by decide +kernel⟩
  exact ⟨⟨there, gone⟩, only_rowless_messages_remove.2 _ _ _ _ _ _ _ _ _ _ enters
    (trials_sampleGone "d") there gone⟩

/-- An update without a row after the change removes the row, and no message reports a delete. -/
theorem update_without_row_removes :
    (Trials [Sample.settings "orders"] .replication sampleEmpty sampleStored ∧
        Trials [Sample.settings "orders"] .replication sampleStored (sampleGone "u")) ∧
      (sampleStored.stores samplePlace "id=1" ∧
        (sampleGone "u").stores samplePlace "id=1" = false) ∧
      ∀ x ∈ (sampleGone "u").saved,
        Debezium.operationCode? (x.message.value.getD .empty) ≠ some Operation.delete.code :=
  ⟨⟨trials_sampleTaken.tail (.work (.flush _ .shutdown 0)), trials_sampleGone "u"⟩,
    by decide +kernel, by decide +kernel⟩

end Run

end ChangeCapture
