import ChangeCapture.Proofs.Engine.Arranged
import Mathlib.Data.List.Perm.Basic

/-!
# Listed tables

Every table is listed once, under the topic that its buffer belongs to
(`TableRegistry.Orderly`).  So the messages that wait in the buffers of a topic
(`TableRegistry.pending`) are those of one table and those of the others, and a
change of one buffer leaves the others as they are.
-/

namespace ChangeCapture

/-! ## The messages of a window -/

/-- The messages after one was recorded are the new one and those that it does not replace. -/
theorem Window.lastMessages_record {w : Window} (aligned : w.Aligned) (m : Message) :
    ∃ dropped kept, w.lastMessages.Perm (dropped ++ kept) ∧
      (w.record m).lastMessages.Perm (m :: kept) ∧
      ∀ x ∈ dropped, m.ackMode = .latestPerPartition ∧ x.partition = m.partition := by
  have before : w.lastMessages.Perm
      ((w.messages.get? m.partition).getD [] ++ (w.messages.erase m.partition).values.flatten) := by
    cases hp : w.messages.get? m.partition with
    | none =>
      rw [SortedMap.erase_of_get? hp]
      exact .refl _
    | some ms => exact ((SortedMap.toList_perm_of_get? hp).map Prod.snd).flatten
  have after : ∀ ms, (w.messages.insert m.partition ms).values.flatten.Perm
      (ms ++ (w.messages.erase m.partition).values.flatten) := fun ms =>
    ((w.messages.toList_insert_perm m.partition ms).map Prod.snd).flatten
  cases hack : m.ackMode with
  | latestPerPartition =>
    refine ⟨_, _, before, ?_, fun x mem => ⟨rfl, ?_⟩⟩
    · simp only [lastMessages, record, hack]
      exact after [m]
    · cases hp : w.messages.get? m.partition with
      | none => simp [hp] at mem
      | some ms => exact aligned _ ms hp x (by simpa [hp] using mem)
  | everyMessage =>
    refine ⟨[], _, .refl _, ?_, fun x mem => absurd mem List.not_mem_nil⟩
    simp only [lastMessages, record, hack]
    refine (after _).trans ?_
    rw [List.append_assoc, List.singleton_append]
    exact List.perm_middle.trans (before.symm.cons m)

/-! ## Tables and their topics -/

namespace TableRegistry

theorem topic_getOrNew (r : TableRegistry) (t : TableId) (topic : String) :
    (r.getOrNew t topic).topic = ((r.get? t).map TableBuffer.topic).getD topic := by
  cases hb : r.get? t with
  | none =>
    rw [getOrNew_of_none topic hb]
    rfl
  | some b =>
    rw [getOrNew_of_get? topic hb]
    rfl

theorem tablesOf_putWindow_of_get? {r : TableRegistry} {t : TableId} {b : TableBuffer}
    (h : r.get? t = some b) (fed : String) (w : Window) (topic : String) :
    (r.putWindow t fed w).tablesOf topic = r.tablesOf topic := by
  unfold get? at h
  show (r.register t fed).tablesOf topic = _
  simp [register, SortedMap.contains, h]

theorem tablesOf_putWindow_of_none {r : TableRegistry} {t : TableId} (h : r.get? t = none)
    (fed : String) (w : Window) (topic : String) :
    (r.putWindow t fed w).tablesOf topic =
      if topic = fed then r.tablesOf fed ++ [t] else r.tablesOf topic := by
  unfold get? at h
  show (r.register t fed).tablesOf topic = _
  simp only [register, SortedMap.contains, h, Option.isSome_none, Bool.false_eq_true, if_false]
  exact SortedMap.getD_insert r.topics fed topic _ []

/-- Every table is listed once, under the topic of its buffer. -/
structure Orderly (r : TableRegistry) : Prop where
  /-- Every buffer stands under the name of its table. -/
  named : r.Named
  /-- Every window stands in the buffer of its table. -/
  tidy : ∀ t b w, r.get? t = some b → b.window = some w → w.tableId = t ∧ w.Tidy
  /-- The tables of a topic are those whose buffers belong to it. -/
  listed : ∀ topic t, t ∈ r.tablesOf topic ↔ ∃ b, r.get? t = some b ∧ b.topic = topic
  /-- No table is listed twice. -/
  once : ∀ topic, (r.tablesOf topic).Nodup

namespace Orderly

variable {r : TableRegistry}

theorem new (thresholds : Thresholds) : (TableRegistry.new thresholds).Orderly := by
  have none : ∀ t b, (TableRegistry.new thresholds).get? t ≠ some b := by
    intro t b hb
    cases hb
  refine ⟨fun t b hb => absurd hb (none t b), fun t b w hb => absurd hb (none t b), ?_, ?_⟩
  · intro topic t
    constructor
    · intro mem
      cases mem
    · rintro ⟨b, hb, -⟩
      exact absurd hb (none t b)
  · exact fun topic => List.nodup_nil

theorem arranged (h : r.Orderly) (topic : String) : r.Arranged topic (· ∈ r.tablesOf topic) := by
  refine ⟨h.named, h.tidy, fun t => ⟨fun mem => ⟨mem, ?_⟩, And.left⟩, ?_⟩
  · obtain ⟨b, hb, -⟩ := (h.listed topic t).1 mem
    exact ⟨b, hb⟩
  · intro other ne t mem mem'
    obtain ⟨b, hb, rfl⟩ := (h.listed other t).1 mem
    obtain ⟨b', hb', rfl⟩ := (h.listed topic t).1 mem'
    obtain rfl := Option.some.inj (hb.symm.trans hb')
    exact ne rfl

theorem putWindow (h : r.Orderly) {t : TableId} (fed : String) {w : Window}
    (table : w.tableId = t) (tidy : w.Tidy) : (r.putWindow t fed w).Orderly := by
  refine ⟨h.named.putWindow t fed w, ?_, ?_, ?_⟩
  · intro t' b w' hb hw
    rw [get?_putWindow] at hb
    split at hb
    · rename_i same
      obtain rfl := Option.some.inj hb
      obtain rfl := Option.some.inj hw
      exact ⟨table.trans same.symm, tidy⟩
    · exact h.tidy t' b w' hb hw
  · intro topic t'
    rw [get?_putWindow, mem_tablesOf_putWindow, h.listed]
    by_cases same : t' = t
    · subst same
      simp only [if_true, Option.some.injEq, exists_eq_left', and_true]
      show _ ↔ (r.getOrNew t' fed).topic = topic
      rw [topic_getOrNew]
      cases hb : r.get? t' with
      | none => simp [eq_comm]
      | some b => simp
    · simp [same]
  · intro topic
    cases hb : r.get? t with
    | some b =>
      rw [tablesOf_putWindow_of_get? hb]
      exact h.once topic
    | none =>
      rw [tablesOf_putWindow_of_none hb]
      split
      · refine List.nodup_append'.2 ⟨h.once fed, List.nodup_singleton t, ?_⟩
        rw [List.disjoint_singleton]
        intro mem
        obtain ⟨b, hb', -⟩ := (h.listed fed t).1 mem
        rw [hb] at hb'
        cases hb'
      · exact h.once topic

/-- The buffer of a table may be replaced by one of the same topic that is in order. -/
theorem set (h : r.Orderly) (b : TableBuffer) {old : TableBuffer}
    (there : r.get? b.tableId = some old) (topic : b.topic = old.topic)
    (tidy : ∀ w, b.window = some w → w.tableId = b.tableId ∧ w.Tidy) :
    (r.set b.tableId b).Orderly := by
  refine ⟨h.named.set b, ?_, ?_, h.once⟩
  · intro t b' w hb hw
    rw [get?_set] at hb
    split at hb
    · rename_i same
      rw [← Option.some.inj hb] at hw
      rw [same]
      exact tidy w hw
    · exact h.tidy t b' w hb hw
  · intro fed t
    rw [tablesOf_set, h.listed, get?_set]
    split
    · rename_i same
      subst same
      simp [there, topic]
    · rfl

end Orderly

/-! ## The messages that wait -/

/-- The messages in the buffer of a table. -/
def messagesOf (r : TableRegistry) (t : TableId) : List Message :=
  (((r.get? t).bind TableBuffer.window).map Window.lastMessages).getD []

/-- The messages in the buffers of a topic. -/
def pending (r : TableRegistry) (topic : String) : List Message :=
  (r.tablesOf topic).flatMap r.messagesOf

theorem messagesOf_of_window {r : TableRegistry} {t : TableId} {b : TableBuffer} {w : Window}
    (hb : r.get? t = some b) (hw : b.window = some w) : r.messagesOf t = w.lastMessages := by
  simp [messagesOf, hb, hw]

theorem messagesOf_congr {r r' : TableRegistry} {t : TableId} (h : r'.get? t = r.get? t) :
    r'.messagesOf t = r.messagesOf t := by
  simp only [messagesOf]
  rw [h]

theorem mem_messagesOf_iff {r : TableRegistry} {t : TableId} {m : Message} :
    m ∈ r.messagesOf t ↔ r.Buffers t m := by
  constructor
  · intro mem
    unfold messagesOf at mem
    cases hb : r.get? t with
    | none => simp [hb] at mem
    | some b =>
      cases hw : b.window with
      | none => simp [hb, hw] at mem
      | some w => exact ⟨b, w, hb, hw, by simpa [hb, hw] using mem⟩
  · rintro ⟨b, w, hb, hw, mem⟩
    rwa [messagesOf_of_window hb hw]

/-- Without rows there are no messages. -/
theorem Vacant.messagesOf {r : TableRegistry} {t : TableId} (h : r.Vacant t)
    (tidy : ∀ b w, r.get? t = some b → b.window = some w → w.Tidy) : r.messagesOf t = [] := by
  refine List.eq_nil_iff_forall_not_mem.2 fun m mem => ?_
  obtain ⟨b, w, hb, hw, mem⟩ := mem_messagesOf_iff.1 mem
  have empty := h b hb
  simp only [TableBuffer.isEmpty, hw, Option.all_some] at empty
  rw [(tidy b w hb hw).quiet empty] at mem
  cases mem

/-- A change of one buffer leaves the messages of the other buffers of the topic. -/
theorem pending_split {r r' : TableRegistry} {topic : String} {t : TableId}
    (lists : r'.tablesOf topic = r.tablesOf topic) (once : (r.tablesOf topic).Nodup)
    (listed : t ∈ r.tablesOf topic) (frame : ∀ t', t' ≠ t → r'.get? t' = r.get? t') :
    ∃ rest, (r.pending topic).Perm (r.messagesOf t ++ rest) ∧
      (r'.pending topic).Perm (r'.messagesOf t ++ rest) := by
  refine ⟨((r.tablesOf topic).erase t).flatMap r.messagesOf, ?_, ?_⟩
  · exact (List.perm_cons_erase listed).flatMap_right _
  · have others : ((r.tablesOf topic).erase t).flatMap r'.messagesOf =
        ((r.tablesOf topic).erase t).flatMap r.messagesOf := by
      refine List.flatMap_congr fun t' mem => messagesOf_congr (frame t' ?_)
      rintro rfl
      exact once.not_mem_erase mem
    rw [← others]
    simp only [pending]
    rw [lists]
    exact (List.perm_cons_erase listed).flatMap_right _

/-- A change of the buffer of another topic leaves the messages of the topic. -/
theorem pending_congr {r r' : TableRegistry} {topic : String} {t : TableId}
    (lists : r'.tablesOf topic = r.tablesOf topic) (listed : t ∉ r.tablesOf topic)
    (frame : ∀ t', t' ≠ t → r'.get? t' = r.get? t') : r'.pending topic = r.pending topic := by
  simp only [pending]
  rw [lists]
  refine List.flatMap_congr fun t' mem => messagesOf_congr (frame t' ?_)
  rintro rfl
  exact listed mem

theorem messagesOf_putWindow_self (r : TableRegistry) (t : TableId) (fed : String) (w : Window) :
    (r.putWindow t fed w).messagesOf t = w.lastMessages :=
  messagesOf_of_window (r.get?_putWindow_self t fed w) rfl

/-- A window that is put into a buffer takes the place of the one in it. -/
theorem Orderly.pending_putWindow_self {r : TableRegistry} (h : r.Orderly) (t : TableId)
    (fed : String) (w : Window) :
    ∃ rest, (r.pending (r.getOrNew t fed).topic).Perm (r.messagesOf t ++ rest) ∧
      ((r.putWindow t fed w).pending (r.getOrNew t fed).topic).Perm (w.lastMessages ++ rest) := by
  rw [← messagesOf_putWindow_self r t fed w]
  cases hb : r.get? t with
  | some b =>
    rw [getOrNew_of_get? fed hb]
    refine pending_split (tablesOf_putWindow_of_get? hb fed w _) (h.once _) ?_
      fun t' => get?_putWindow_of_ne r fed w
    exact (h.listed _ t).2 ⟨b, hb, rfl⟩
  | none =>
    rw [getOrNew_of_none fed hb]
    have fresh : r.messagesOf t = [] := by simp [messagesOf, hb]
    have others : (r.tablesOf fed).flatMap (r.putWindow t fed w).messagesOf = r.pending fed := by
      refine List.flatMap_congr fun t' mem => messagesOf_congr (get?_putWindow_of_ne r fed w ?_)
      rintro rfl
      obtain ⟨b, hb', -⟩ := (h.listed fed t').1 mem
      rw [hb] at hb'
      cases hb'
    refine ⟨r.pending fed, by rw [fresh]; exact .refl _, ?_⟩
    show ((r.putWindow t fed w).tablesOf fed |>.flatMap _).Perm _
    rw [tablesOf_putWindow_of_none hb, if_pos rfl, List.flatMap_append, others,
      List.flatMap_singleton]
    exact List.perm_append_comm

theorem Orderly.pending_putWindow_of_ne {r : TableRegistry} (h : r.Orderly) {t : TableId}
    {fed topic : String} (w : Window) (ne : topic ≠ (r.getOrNew t fed).topic) :
    (r.putWindow t fed w).pending topic = r.pending topic := by
  refine pending_congr ?_ ?_ fun t' => get?_putWindow_of_ne r fed w
  · cases hb : r.get? t with
    | some b => exact tablesOf_putWindow_of_get? hb fed w topic
    | none =>
      rw [getOrNew_of_none fed hb] at ne
      exact (tablesOf_putWindow_of_none hb fed w topic).trans (if_neg ne)
  · intro mem
    obtain ⟨b, hb, rfl⟩ := (h.listed topic t).1 mem
    rw [getOrNew_of_get? fed hb] at ne
    exact ne rfl

end TableRegistry

/-! ## The messages of an event's window -/

namespace RowEvent

/-- The window that an event is saved into has the messages that wait for its table. -/
theorem lastMessages_opened {e : RowEvent} {s : TopicSettings} {r : TableRegistry}
    (h : r.Orderly) : (e.opened s r).lastMessages = r.messagesOf e.tableId := by
  rcases e.opened_cases s r with ⟨empty, fresh⟩ | ⟨b, w, holds, old⟩
  · have vacant : r.Vacant e.tableId := by
      intro b hb
      rwa [TableRegistry.getOrNew_of_get? _ hb] at empty
    rw [fresh, vacant.messagesOf fun b w hb hw => (h.tidy _ b w hb hw).2]
    rfl
  · rw [old, TableRegistry.messagesOf_of_window holds.buffer holds.window]
    rfl

/-- Saving an event puts its message beside those that wait for its table, or in the place of some
of its partition. -/
theorem lastMessages_stored {e : RowEvent} {s : TopicSettings} {r : TableRegistry}
    (h : r.Orderly) (m : Message) (key : String) :
    ∃ dropped kept, (r.messagesOf e.tableId).Perm (dropped ++ kept) ∧
      (e.stored s m r key).lastMessages.Perm (m :: kept) ∧
      ∀ x ∈ dropped, m.ackMode = .latestPerPartition ∧ x.partition = m.partition := by
  have opened := tidy_opened (e := e) (s := s) (h.arranged s.topic)
  have messages : (((e.opened s r).insert key e.savedRow e.isDelete).observe e.time).messages =
      (e.opened s r).messages := by
    rw [Window.messages_observe, Window.messages_insert]
  have same : (((e.opened s r).insert key e.savedRow e.isDelete).observe e.time).lastMessages =
      r.messagesOf e.tableId := by
    rw [← lastMessages_opened (s := s) h]
    simp only [Window.lastMessages]
    rw [messages]
  have aligned : (((e.opened s r).insert key e.savedRow e.isDelete).observe e.time).Aligned := by
    simp only [Window.Aligned]
    rw [messages]
    exact opened.aligned
  obtain ⟨dropped, kept, before, after, replaced⟩ := Window.lastMessages_record aligned m
  exact ⟨dropped, kept, same ▸ before, after, replaced⟩

end RowEvent

/-! ## Flushes -/

/-- The flush of a table keeps all tables listed. -/
theorem Engine.TableStep.orderly {δ κ : Type} [Destination δ] {e e' : Engine δ κ} {t : TableId}
    {cooldown : Option Nat} {now : Nat} {outcome : Outcome TableFlush}
    (h : TableStep e t cooldown now e' outcome) (orderly : e.registry.Orderly) :
    e'.registry.Orderly := by
  rcases h.replaces orderly.named with same | ⟨b, b', there, rfl, topic, windows, replaced⟩
  · rwa [same]
  · rw [replaced]
    refine orderly.set b' there topic fun v hv => ?_
    obtain ⟨w, known, hw, rfl⟩ := windows v hv
    obtain ⟨table, tidy⟩ := orderly.tidy _ b w there hw
    exact ⟨table, tidy.congr rfl rfl rfl rfl⟩

end ChangeCapture
