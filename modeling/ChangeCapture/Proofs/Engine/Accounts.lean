import ChangeCapture.Proofs.Engine.Arranged
import ChangeCapture.Proofs.Message.Summary

/-!
# Rows, messages and commits

Where the messages of a topic are at any point of a run (`Engine.Accounts`).  A
saved row waits in the buffer of its table, or a window of the table was entered
since.  As long as it waits, its window has a message that covers it; once it is
gone, a message that covers it is in hand, held or committed.  No message that is
still to be committed stands before one that was committed.

During a flush the messages of the tables that were written are in hand.  They
are held or committed at its end.
-/

namespace ChangeCapture

variable {δ : Type} [Destination δ]

/-- The saved messages of a topic. -/
def Saved.ofTopic (topic : String) (saved : List Saved) : List Saved :=
  saved.filter (·.topic == topic)

theorem Saved.mem_ofTopic {topic : String} {saved : List Saved} {s : Saved} :
    s ∈ Saved.ofTopic topic saved ↔ s ∈ saved ∧ s.topic = topic := by
  simp [Saved.ofTopic]

theorem Saved.ofTopic_append (topic : String) (saved more : List Saved) :
    Saved.ofTopic topic (saved ++ more) = Saved.ofTopic topic saved ++ Saved.ofTopic topic more :=
  List.filter_append saved more

theorem Saved.ofTopic_singleton_self {topic : String} {s : Saved} (h : s.topic = topic) :
    Saved.ofTopic topic [s] = [s] := by
  simp [Saved.ofTopic, h]

theorem Saved.ofTopic_singleton_of_ne {topic : String} {s : Saved} (h : s.topic ≠ topic) :
    Saved.ofTopic topic [s] = [] := by
  simp [Saved.ofTopic, h]

/-- A window of its table was entered since the row was saved. -/
def Saved.IsGone (s : Saved) (accepted : List Window) : Prop :=
  ∃ w ∈ accepted.drop s.entered, w.tableId = s.event.tableId

theorem Saved.isGone_append {s : Saved} {accepted : List Window}
    (entered : s.entered ≤ accepted.length) {more : List Window} :
    s.IsGone (accepted ++ more) ↔
      s.IsGone accepted ∨ ∃ w ∈ more, w.tableId = s.event.tableId := by
  simp only [IsGone, List.drop_append_of_le_length entered, List.mem_append, or_and_right,
    exists_or]

/-- The row waits in the buffer of its table, with a message that covers its own, and no window of
its table was entered since it was saved. -/
def Saved.Waits (s : Saved) (r : TableRegistry) (accepted : List Window) : Prop :=
  ∃ b w, r.Holds s.event.tableId b w ∧ s.message.Covered w.lastMessages ∧ ¬ s.IsGone accepted

/-- A row goes on waiting when a window that covers it is put into the buffer of its table. -/
theorem Saved.Waits.putWindow {s : Saved} {r : TableRegistry} {accepted : List Window}
    (h : s.Waits r accepted) {t : TableId} (fed : String) {w' : Window}
    (rows : s.event.tableId = t → ∀ b w, r.Holds t b w → s.message.Covered w.lastMessages →
      w'.isEmpty = false ∧ s.message.Covered w'.lastMessages) :
    s.Waits (r.putWindow t fed w') accepted := by
  obtain ⟨b, w, holds, covered, waits⟩ := h
  by_cases same : s.event.tableId = t
  · subst same
    obtain ⟨filled, covered⟩ := rows rfl b w holds covered
    exact ⟨_, w', r.holds_putWindow_self _ fed filled, covered, waits⟩
  · exact ⟨b, w, holds.putWindow_of_ne fed w' same, covered, waits⟩

/-- The row was saved last, into the window `w` of a table that belongs to the topic.  Its message
stands behind those that were committed. -/
structure Saved.IsNew (s : Saved) (own : TableId → Prop) (accepted : List Window)
    (commits : List Message) (t : TableId) (w : Window) : Prop where
  /-- The table belongs to the topic. -/
  own : own t
  /-- The row is of the table. -/
  table : s.event.tableId = t
  /-- No window was entered since. -/
  entered : s.entered = accepted.length
  /-- The window has rows. -/
  filled : w.isEmpty = false
  /-- The window has its message. -/
  message : s.message ∈ w.lastMessages
  /-- The message stands behind those that were committed. -/
  later : ∀ c ∈ commits, c.Precedes s.message

theorem Saved.IsNew.waits {s : Saved} {own : TableId → Prop} {accepted : List Window}
    {commits : List Message} {t : TableId} {w : Window} (h : s.IsNew own accepted commits t w)
    (r : TableRegistry) (fed : String) : s.Waits (r.putWindow t fed w) accepted := by
  obtain ⟨-, rfl, entered, filled, mem, -⟩ := h
  refine ⟨_, w, r.holds_putWindow_self _ fed filled, ⟨_, mem, rfl, Int.le_refl _⟩, ?_⟩
  rintro ⟨v, hv, -⟩
  rw [entered, List.drop_length] at hv
  cases hv

theorem Message.Covered.append_left {m : Message} {ms : List Message} (h : m.Covered ms)
    (more : List Message) : m.Covered (ms ++ more) :=
  h.mono fun _ mem => List.mem_append_left more mem

theorem Message.Covered.append_right {m : Message} {ms : List Message} (h : m.Covered ms)
    (more : List Message) : m.Covered (more ++ ms) :=
  h.mono fun _ mem => List.mem_append_right more mem

namespace Engine

/-- The messages of the tables that were written are those of the window, or there are none. -/
theorem messages_singleton (outcome : Outcome TableFlush) :
    FlushOutcomes.messages [outcome] =
      match outcome with
      | .ok flush => flush.messages
      | .error _ => [] := by
  cases outcome <;> simp [FlushOutcomes.messages]

theorem messages_cons (outcome : Outcome TableFlush) (rest : List (Outcome TableFlush)) :
    FlushOutcomes.messages (outcome :: rest) =
      FlushOutcomes.messages [outcome] ++ FlushOutcomes.messages rest := by
  simp [FlushOutcomes.messages]

variable {topic : String} {own : TableId → Prop}

/-- What the flush of a table does to its window and to the windows entered. -/
inductive TableEffect (e e' : Engine (Ledger δ) MessageQueue) (t : TableId) :
    List Message → Prop where
  /-- There was no row, and nothing changed. -/
  | nothing (vacant : e.registry.Vacant t) (same : e' = e) : TableEffect e e' t []
  /-- The window stays, perhaps with other columns. -/
  | kept {b b' : TableBuffer} {w : Window} {columns : ColumnRegistry}
    (before : e.registry.Holds t b w)
    (after : e'.registry.Holds t b' { w with columns := columns })
    (entered : e'.destination.accepted = e.destination.accepted) : TableEffect e e' t []
  /-- The window was written and entered. -/
  | written {b : TableBuffer} {w : Window} {columns : ColumnRegistry}
    (before : e.registry.Holds t b w) (after : e'.registry.Vacant t)
    (entered : e'.destination.accepted =
      e.destination.accepted ++ [{ w with columns := columns }]) :
    TableEffect e e' t w.lastMessages

theorem TableStep.effect {e e' : Engine (Ledger δ) MessageQueue} {t : TableId}
    {cooldown : Option Nat} {now : Nat} {outcome : Outcome TableFlush}
    (h : TableStep e t cooldown now e' outcome) (named : e.registry.Named) :
    TableEffect e e' t (FlushOutcomes.messages [outcome]) := by
  have adopted : ∀ {b w} (known : ColumnRegistry), e.registry.Holds t b w →
      TableRegistry.Holds (e.registry.set b.tableId (b.setWindow (w.adopt known))) t
        (b.setWindow (w.adopt known)) (w.adopt known) := by
    intro b w known holds
    refine ⟨?_, rfl, holds.filled⟩
    rw [TableRegistry.get?_set, if_pos (named t b holds.buffer).symm]
  rw [messages_singleton]
  cases h with
  | nothing vacant => exact .nothing vacant rfl
  | cooled holds _ _ => exact .kept holds holds rfl
  | unknown holds probes _ => exact .kept holds holds (Ledger.accepted_probes probes)
  | failed holds tells _ =>
    exact .kept holds (adopted _ holds) (Ledger.accepted_probes tells.probes)
  | denied holds tells write =>
    refine .kept holds (adopted _ holds) ?_
    exact (Ledger.accepted_write write).trans (Ledger.accepted_probes tells.probes)
  | @written b w holds d d' known tells write finished =>
    have step : TableStep e t cooldown now _ _ := .written holds tells write finished
    have entered : d'.accepted = e.destination.accepted ++ [w.adopt known] := by
      rw [Ledger.accepted_write write, Ledger.enter, Ledger.accepted_probes tells.probes]
    exact .written holds (step.vacant_self named rfl) entered

omit [Destination δ] in
/-- The flush of a table enters windows of that table only. -/
theorem TableEffect.entered {e e' : Engine (Ledger δ) MessageQueue} {t : TableId}
    {ms : List Message} (h : TableEffect e e' t ms) (arranged : e.registry.Arranged topic own) :
    ∃ more, e'.destination.accepted = e.destination.accepted ++ more ∧
      ∀ v ∈ more, v.tableId = t := by
  cases h with
  | nothing _ same => exact ⟨[], by simp [same]⟩
  | kept _ _ entered => exact ⟨[], by simp [entered]⟩
  | @written b w _ before _ entered =>
    refine ⟨_, entered, ?_⟩
    intro v mem
    rw [List.mem_singleton.1 mem]
    exact (arranged.tidy t b w before.buffer before.window).1

omit [Destination δ] in
/-- A row that waits goes on waiting, or its window is entered with a message that covers it. -/
theorem TableEffect.waits {e e' : Engine (Ledger δ) MessageQueue} {t : TableId}
    {ms : List Message} (h : TableEffect e e' t ms) (arranged : e.registry.Arranged topic own)
    (frame : ∀ t', t' ≠ t → e'.registry.get? t' = e.registry.get? t') {s : Saved}
    (entered : s.entered ≤ e.destination.accepted.length)
    (waits : s.Waits e.registry e.destination.accepted) :
    s.Waits e'.registry e'.destination.accepted ∨
      (s.event.tableId = t ∧ s.IsGone e'.destination.accepted ∧ s.message.Covered ms) := by
  obtain ⟨b, w, holds, covered, waits⟩ := waits
  by_cases same : s.event.tableId = t
  · subst same
    have unique : ∀ {b' w'}, e.registry.Holds s.event.tableId b' w' → w' = w := by
      intro b' w' holds'
      obtain rfl := Option.some.inj (holds'.buffer.symm.trans holds.buffer)
      exact Option.some.inj (holds'.window.symm.trans holds.window)
    cases h with
    | nothing vacant _ => exact absurd holds vacant.not_holds
    | kept before after kept =>
      obtain rfl := unique before
      refine .inl ⟨_, _, after, covered, ?_⟩
      rwa [kept]
    | written before _ written =>
      obtain rfl := unique before
      refine .inr ⟨rfl, ?_, covered⟩
      rw [written, Saved.isGone_append entered]
      refine .inr ⟨_, List.mem_singleton_self _, ?_⟩
      exact (arranged.tidy _ _ _ before.buffer before.window).1
  · obtain ⟨more, hmore, foreign⟩ := h.entered arranged
    refine .inl ⟨b, w, ⟨(frame _ same).trans holds.buffer, holds.window, holds.filled⟩,
      covered, ?_⟩
    rw [hmore, Saved.isGone_append entered]
    rintro (gone | ⟨v, mem, table⟩)
    · exact waits gone
    · exact same (table.symm.trans (foreign v mem))

omit [Destination δ] in
/-- The messages at hand after the flush of a table were in its window, and no buffer has others
than before. -/
theorem TableEffect.buffers {e e' : Engine (Ledger δ) MessageQueue} {t : TableId}
    {ms : List Message} (h : TableEffect e e' t ms) (arranged : e'.registry.Arranged topic own)
    (frame : ∀ t', t' ≠ t → e'.registry.get? t' = e.registry.get? t') :
    (∀ t' m, e'.registry.Buffers t' m → e.registry.Buffers t' m) ∧
      ∀ m ∈ ms, e.registry.Buffers t m := by
  constructor
  · rintro t' m ⟨b, w, hb, hw, mem⟩
    by_cases same : t' = t
    · subst same
      cases h with
      | nothing _ same => exact ⟨b, w, same ▸ hb, hw, mem⟩
      | kept before after _ =>
        obtain rfl := Option.some.inj (hb.symm.trans after.buffer)
        obtain rfl := Option.some.inj (hw.symm.trans after.window)
        exact ⟨_, _, before.buffer, before.window, mem⟩
      | written _ after _ =>
        have empty := after b hb
        simp only [TableBuffer.isEmpty, hw, Option.all_some] at empty
        rw [(arranged.tidy t' b w hb hw).2.quiet empty] at mem
        cases mem
    · rw [frame t' same] at hb
      exact ⟨b, w, hb, hw, mem⟩
  · intro m mem
    cases h with
    | nothing _ _ => cases mem
    | kept _ _ _ => cases mem
    | written before _ _ => exact ⟨_, _, before.buffer, before.window, mem⟩

theorem TableStep.buffers {e e' : Engine (Ledger δ) MessageQueue} {t : TableId}
    {cooldown : Option Nat} {now : Nat} {outcome : Outcome TableFlush}
    (h : TableStep e t cooldown now e' outcome) (arranged : e.registry.Arranged topic own) :
    (∀ t' m, e'.registry.Buffers t' m → e.registry.Buffers t' m) ∧
      ∀ m ∈ FlushOutcomes.messages [outcome], e.registry.Buffers t m :=
  (h.effect arranged.named).buffers (h.arranged arranged) fun _ => h.get?_of_ne arranged.named

/-- The messages of tables that were written were in their windows. -/
theorem buffers_of_mem_flushTables {e : Engine (Ledger δ) MessageQueue}
    (arranged : e.registry.Arranged topic own) {cooldown : Option Nat} {now : Nat}
    {tables : List TableId} {m : Message}
    (h : m ∈ FlushOutcomes.messages (e.flushTables cooldown now tables).2.1) :
    ∃ t ∈ tables, e.registry.Buffers t m := by
  induction tables generalizing e with
  | nil => cases h
  | cons t rest ih =>
    have step := e.flushTable_step t cooldown now
    obtain ⟨buffers, fromWindow⟩ := step.buffers arranged
    rw [flushTables_outcomes_cons, messages_cons] at h
    rcases List.mem_append.1 h with mem | mem
    · exact ⟨t, List.mem_cons_self, fromWindow m mem⟩
    · obtain ⟨t', mem', buffered⟩ := ih (step.arranged arranged) mem
      exact ⟨t', List.mem_cons_of_mem t mem', buffers t' m buffered⟩

/-- A flush of tables enters windows of these tables only. -/
theorem entered_flushTables {e : Engine (Ledger δ) MessageQueue}
    (arranged : e.registry.Arranged topic own) (cooldown : Option Nat) (now : Nat)
    (tables : List TableId) :
    ∃ more, (e.flushTables cooldown now tables).1.destination.accepted =
      e.destination.accepted ++ more ∧ ∀ v ∈ more, v.tableId ∈ tables := by
  induction tables generalizing e with
  | nil => exact ⟨[], (List.append_nil _).symm, fun _ mem => absurd mem List.not_mem_nil⟩
  | cons t rest ih =>
    have step := e.flushTable_step t cooldown now
    obtain ⟨first, entered, foreign⟩ := (step.effect arranged.named).entered arranged
    obtain ⟨more, entered', foreign'⟩ := ih (step.arranged arranged)
    rw [flushTables_cons]
    refine ⟨first ++ more, ?_, ?_⟩
    · rw [entered', entered, List.append_assoc]
    · intro v mem
      rcases List.mem_append.1 mem with mem | mem
      · rw [foreign v mem]
        exact List.mem_cons_self
      · exact List.mem_cons_of_mem t (foreign' v mem)

/-! ## The invariant -/

/-- The messages of a topic that are still to be committed. -/
def Outstanding (e : Engine (Ledger δ) MessageQueue) (topic : String) (own : TableId → Prop)
    (inHand : List Message) (m : Message) : Prop :=
  m ∈ inHand ∨ m ∈ e.held.getD topic [] ∨ ∃ t, own t ∧ e.registry.Buffers t m

/-- What is still to be committed after the flush of a table was so before. -/
theorem TableStep.outstanding {e e' : Engine (Ledger δ) MessageQueue} {t : TableId}
    {cooldown : Option Nat} {now : Nat} {outcome : Outcome TableFlush}
    (h : TableStep e t cooldown now e' outcome) (arranged : e.registry.Arranged topic own)
    {inHand inHand' : List Message}
    (only : ∀ m ∈ inHand', m ∈ inHand ∨ own t ∧ m ∈ FlushOutcomes.messages [outcome])
    {m : Message} (out : e'.Outstanding topic own inHand' m) :
    e.Outstanding topic own inHand m := by
  obtain ⟨buffers, fromWindow⟩ := h.buffers arranged
  obtain ⟨-, -, held⟩ := h.frame
  rcases out with mem | mem | ⟨t', o, buffered⟩
  · rcases only m mem with mem | ⟨o, mem⟩
    · exact .inl mem
    · exact .inr (.inr ⟨t, o, fromWindow m mem⟩)
  · exact .inr (.inl (held ▸ mem))
  · exact .inr (.inr ⟨t', o, buffers t' m buffered⟩)

/-- Where the rows and the messages of a topic are. -/
structure Accounts (topic : String) (own : TableId → Prop) (e : Engine (Ledger δ) MessageQueue)
    (q : MessageQueue) (saved : List Saved) (inHand : List Message) : Prop where
  /-- The buffers are in order. -/
  arranged : e.registry.Arranged topic own
  /-- The queue of the topic. -/
  source : e.sources.get? topic = some q
  /-- The queue gives out messages in order. -/
  ordered : q.Ordered ((Saved.ofTopic topic saved).map Saved.message)
  /-- The committed offsets are the greatest ones. -/
  marks : MessageQueue.Marks q.committed q.commits.flatten
  /-- The rows of the topic are in its tables. -/
  owned : ∀ s ∈ Saved.ofTopic topic saved, own s.event.tableId ∧
    (∃ b, e.registry.get? s.event.tableId = some b) ∧ s.entered ≤ e.destination.accepted.length
  /-- A row waits, or it is gone and its message is on its way. -/
  placed : ∀ s ∈ Saved.ofTopic topic saved, s.Waits e.registry e.destination.accepted ∨
    (s.IsGone e.destination.accepted ∧
      s.message.Covered (inHand ++ e.held.getD topic [] ++ q.commits.flatten))
  /-- A message in the buffer of a table belongs to a row of the table. -/
  buffered : ∀ t m, own t → e.registry.Buffers t m →
    ∃ s ∈ Saved.ofTopic topic saved, s.event.tableId = t ∧ s.message = m
  /-- The other messages belong to rows as well. -/
  collected : ∀ m ∈ inHand ++ e.held.getD topic [] ++ q.commits.flatten,
    ∃ s ∈ Saved.ofTopic topic saved, s.message = m
  /-- What is still to be committed comes after what was committed. -/
  ahead : ∀ c ∈ q.commits.flatten, ∀ m, e.Outstanding topic own inHand m → c.Precedes m
  /-- All rows up to a committed message are gone. -/
  safe : ∀ c ∈ q.commits.flatten, ∀ s ∈ Saved.ofTopic topic saved,
    s.message.partition = c.partition → s.message.offset ≤ c.offset →
      s.IsGone e.destination.accepted
  /-- Commits follow each other. -/
  increasing : q.commits.Pairwise fun ms ms' => ∀ m ∈ ms, ∀ m' ∈ ms', m.Precedes m'

namespace Accounts

variable {e e' : Engine (Ledger δ) MessageQueue} {q : MessageQueue} {saved : List Saved}
  {inHand : List Message}

omit [Destination δ] in
/-- The accounts of a topic are about its tables, its queue and its held messages only. -/
theorem frame (h : Accounts topic own e q saved inHand) (registry : e'.registry = e.registry)
    (accepted : e'.destination.accepted = e.destination.accepted)
    (source : e'.sources.get? topic = e.sources.get? topic)
    (held : e'.held.getD topic [] = e.held.getD topic []) :
    Accounts topic own e' q saved inHand where
  arranged := registry ▸ h.arranged
  source := source.trans h.source
  ordered := h.ordered
  marks := h.marks
  owned := by
    rw [registry, accepted]
    exact h.owned
  placed := by
    rw [registry, accepted, held]
    exact h.placed
  buffered := by
    rw [registry]
    exact h.buffered
  collected := by
    rw [held]
    exact h.collected
  ahead := by
    simp only [Outstanding]
    rw [registry, held]
    exact h.ahead
  safe := by
    rw [accepted]
    exact h.safe
  increasing := h.increasing

omit [Destination δ] in
/-- A row is known by the place of its message. -/
theorem eq_of_position (h : Accounts topic own e q saved inHand) {s s' : Saved}
    (mem : s ∈ Saved.ofTopic topic saved) (mem' : s' ∈ Saved.ofTopic topic saved)
    (partition : s.message.partition = s'.message.partition)
    (offset : s.message.offset = s'.message.offset) : s = s' := by
  have line := h.ordered.line
  rw [List.pairwise_map] at line
  obtain ⟨i, hi, rfl⟩ := List.getElem_of_mem mem
  obtain ⟨j, hj, rfl⟩ := List.getElem_of_mem mem'
  rcases Nat.lt_trichotomy i j with lt | rfl | lt
  · have := List.pairwise_iff_getElem.1 line i j hi hj lt partition
    omega
  · rfl
  · have := List.pairwise_iff_getElem.1 line j i hj hi lt partition.symm
    omega

/-! ## The flush of a table -/

/-- The flush of a table keeps the accounts.  If the table belongs to the topic, its messages are
in hand afterwards. -/
theorem tableStep (h : Accounts topic own e q saved inHand) {t : TableId}
    {cooldown : Option Nat} {now : Nat} {outcome : Outcome TableFlush}
    (step : TableStep e t cooldown now e' outcome) {inHand' : List Message}
    (old : ∀ m ∈ inHand, m ∈ inHand')
    (new : own t → ∀ m ∈ FlushOutcomes.messages [outcome], m ∈ inHand')
    (only : ∀ m ∈ inHand', m ∈ inHand ∨ own t ∧ m ∈ FlushOutcomes.messages [outcome]) :
    Accounts topic own e' q saved inHand' := by
  have named := h.arranged.named
  have effect := step.effect named
  obtain ⟨more, entered, -⟩ := effect.entered h.arranged
  obtain ⟨buffers, fromWindow⟩ := step.buffers h.arranged
  obtain ⟨-, sources, held⟩ := step.frame
  constructor
  case arranged => exact step.arranged h.arranged
  case source =>
    rw [sources]
    exact h.source
  case ordered => exact h.ordered
  case marks => exact h.marks
  case owned =>
    intro s mem
    obtain ⟨o, there, le⟩ := h.owned s mem
    refine ⟨o, step.registered named there, ?_⟩
    rw [entered, List.length_append]
    exact Nat.le_add_right_of_le le
  case placed =>
    intro s mem
    obtain ⟨o, -, le⟩ := h.owned s mem
    rw [held]
    rcases h.placed s mem with waits | ⟨gone, covered⟩
    · rcases effect.waits h.arranged (fun _ => step.get?_of_ne named) le waits with
        waits | ⟨rfl, gone, covered⟩
      · exact .inl waits
      · refine .inr ⟨gone, covered.mono fun m mem => ?_⟩
        exact List.mem_append_left _ (List.mem_append_left _ (new o m mem))
    · refine .inr ⟨?_, covered.mono fun m => ?_⟩
      · rw [entered, Saved.isGone_append le]
        exact .inl gone
      · simp only [List.mem_append]
        exact Or.imp_left (Or.imp_left (old m))
  case buffered =>
    intro t' m o buffered
    exact h.buffered t' m o (buffers t' m buffered)
  case collected =>
    intro m mem
    rw [held, List.append_assoc] at mem
    rcases List.mem_append.1 mem with mem | mem
    · rcases only m mem with mem | ⟨o, mem⟩
      · exact h.collected m (List.mem_append_left _ (List.mem_append_left _ mem))
      · obtain ⟨s, hs, -, hm⟩ := h.buffered t m o (fromWindow m mem)
        exact ⟨s, hs, hm⟩
    · refine h.collected m ?_
      rw [List.append_assoc]
      exact List.mem_append_right _ mem
  case ahead =>
    intro c mem m out
    exact h.ahead c mem m (step.outstanding h.arranged only out)
  case safe =>
    intro c mem s hs same le
    rw [entered, Saved.isGone_append (h.owned s hs).2.2]
    exact .inl (h.safe c mem s hs same le)
  case increasing => exact h.increasing

/-- The flush of a table of another topic keeps the accounts. -/
theorem tableStep_foreign (h : Accounts topic own e q saved inHand) {t : TableId}
    {cooldown : Option Nat} {now : Nat} {outcome : Outcome TableFlush}
    (step : TableStep e t cooldown now e' outcome) (foreign : ¬ own t) :
    Accounts topic own e' q saved inHand :=
  h.tableStep step (fun _ mem => mem) (fun o => absurd o foreign) fun _ mem => .inl mem

/-- The messages of tables of the topic that were written are in hand after their flush. -/
theorem flushTables (h : Accounts topic own e q saved inHand) (cooldown : Option Nat) (now : Nat)
    {tables : List TableId} (all : ∀ t ∈ tables, own t) :
    Accounts topic own (e.flushTables cooldown now tables).1 q saved
      (inHand ++ FlushOutcomes.messages (e.flushTables cooldown now tables).2.1) := by
  induction tables generalizing e inHand with
  | nil =>
    show Accounts topic own e q saved (inHand ++ [])
    rw [List.append_nil]
    exact h
  | cons t rest ih =>
    rw [flushTables_cons, flushTables_outcomes_cons, messages_cons, ← List.append_assoc]
    refine ih ?_ fun t mem => all t (List.mem_cons_of_mem _ mem)
    refine h.tableStep (e.flushTable_step t cooldown now) ?_ ?_ ?_
    · exact fun m mem => List.mem_append_left _ mem
    · exact fun _ m mem => List.mem_append_right _ mem
    · intro m mem
      rcases List.mem_append.1 mem with mem | mem
      · exact .inl mem
      · exact .inr ⟨all t List.mem_cons_self, mem⟩

theorem flushTables_foreign (h : Accounts topic own e q saved inHand) (cooldown : Option Nat)
    (now : Nat) {tables : List TableId} (none : ∀ t ∈ tables, ¬ own t) :
    Accounts topic own (e.flushTables cooldown now tables).1 q saved inHand :=
  flushTables_induct (P := fun e => Accounts topic own e q saved inHand) tables cooldown now
    (fun mem step h => h.tableStep_foreign step (none _ mem)) e h

/-! ## The intake of a message -/

omit [Destination δ] in
/-- A window is put into the buffer of a table, and rows are saved with it. -/
theorem putWindow (h : Accounts topic own e q saved inHand) {t : TableId} {fed : String}
    (feeds : own t ↔ fed = topic) {w' : Window} (table : w'.tableId = t) (tidy : w'.Tidy)
    {saved' : List Saved}
    (ordered : q.Ordered ((Saved.ofTopic topic saved').map Saved.message))
    (old : ∀ s ∈ Saved.ofTopic topic saved, s ∈ Saved.ofTopic topic saved')
    (new : ∀ s ∈ Saved.ofTopic topic saved', s ∈ Saved.ofTopic topic saved ∨
      s.IsNew own e.destination.accepted q.commits.flatten t w')
    (rows : ∀ s ∈ Saved.ofTopic topic saved, s.event.tableId = t → ∀ b w,
      e.registry.Holds t b w → s.message.Covered w.lastMessages →
        w'.isEmpty = false ∧ s.message.Covered w'.lastMessages)
    (messages : own t → ∀ m ∈ w'.lastMessages, e.registry.Buffers t m ∨
      ∃ s ∈ Saved.ofTopic topic saved', s.message = m ∧
        s.IsNew own e.destination.accepted q.commits.flatten t w') :
    Accounts topic own { e with registry := e.registry.putWindow t fed w' } q saved' inHand := by
  constructor
  case arranged => exact h.arranged.putWindow feeds table tidy
  case source => exact h.source
  case ordered => exact ordered
  case marks => exact h.marks
  case owned =>
    intro s mem
    rcases new s mem with mem' | isNew
    · obtain ⟨o, registered, le⟩ := h.owned s mem'
      exact ⟨o, TableRegistry.registered_putWindow registered t fed w', le⟩
    · obtain ⟨o, rfl, entered, -⟩ := isNew
      exact ⟨o, ⟨_, e.registry.get?_putWindow_self _ fed w'⟩, Nat.le_of_eq entered⟩
  case placed =>
    intro s mem
    rcases new s mem with mem' | isNew
    · exact (h.placed s mem').imp_left fun waits => waits.putWindow fed (rows s mem')
    · exact .inl (isNew.waits e.registry fed)
  case buffered =>
    intro t' m o buffered
    rcases buffered.of_putWindow with buffered | ⟨rfl, mem⟩
    · obtain ⟨s, hs, table, hm⟩ := h.buffered t' m o buffered
      exact ⟨s, old s hs, table, hm⟩
    · rcases messages o m mem with buffered | ⟨s, hs, hm, isNew⟩
      · obtain ⟨s, hs, table, hm⟩ := h.buffered t' m o buffered
        exact ⟨s, old s hs, table, hm⟩
      · exact ⟨s, hs, isNew.table, hm⟩
  case collected =>
    intro m mem
    obtain ⟨s, hs, hm⟩ := h.collected m mem
    exact ⟨s, old s hs, hm⟩
  case ahead =>
    intro c mem m out
    rcases out with inH | held | ⟨t', o, buffered⟩
    · exact h.ahead c mem m (.inl inH)
    · exact h.ahead c mem m (.inr (.inl held))
    · rcases buffered.of_putWindow with buffered | ⟨rfl, hm⟩
      · exact h.ahead c mem m (.inr (.inr ⟨t', o, buffered⟩))
      · rcases messages o m hm with buffered | ⟨s, -, rfl, isNew⟩
        · exact h.ahead c mem m (.inr (.inr ⟨t', o, buffered⟩))
        · exact isNew.later c mem
  case safe =>
    intro c mem s hs same le
    rcases new s hs with hs | isNew
    · exact h.safe c mem s hs same le
    · have := isNew.later c mem same.symm
      omega
  case increasing => exact h.increasing

omit [Destination δ] in
/-- A message that is read keeps the accounts, before its event is taken in. -/
theorem advance (h : Accounts topic own e q saved inHand) {read : String}
    {source source' : MessageQueue} {m : Message} (there : e.sources.get? read = some source)
    (reads : source.read = (.message m, source')) :
    ∃ q', Accounts topic own (Run.advanced e read source') q' saved inHand ∧
      (read = topic → q'.Ordered ((Saved.ofTopic topic saved).map Saved.message ++ [m])) := by
  by_cases same : read = topic
  · subst same
    obtain rfl := Option.some.inj (there.symm.trans h.source)
    obtain ⟨first, rest, -, -, rfl⟩ := MessageQueue.read_message reads
    have taken := h.ordered.take reads
    exact ⟨_, ⟨h.arranged, SortedMap.get?_insert_self _ _ _,
      taken.sublist (List.sublist_append_left _ _), h.marks, h.owned, h.placed, h.buffered,
      h.collected, h.ahead, h.safe, h.increasing⟩, fun _ => taken⟩
  · refine ⟨q, h.frame rfl rfl ?_ rfl, fun h => absurd h same⟩
    exact SortedMap.get?_insert_of_ne _ _ fun h => same h.symm

omit [Destination δ] in
/-- An event that cannot be saved keeps the accounts. -/
theorem refuse (h : Accounts topic own e q saved inHand) {s : TopicSettings} {event : RowEvent}
    (feeds : own event.tableId ↔ s.topic = topic) :
    Accounts topic own
      { e with registry :=
          e.registry.putWindow event.tableId s.topic (event.opened s e.registry) }
      q saved inHand := by
  refine h.putWindow feeds (RowEvent.tableId_opened h.arranged) (RowEvent.tidy_opened h.arranged)
    h.ordered (fun _ mem => mem) (fun _ mem => .inl mem) ?_ ?_
  · intro row _ _ b w holds covered
    rw [RowEvent.opened_of_holds holds]
    exact ⟨holds.filled, covered⟩
  · exact fun _ x mem => .inl (RowEvent.buffers_of_mem_opened mem)

omit [Destination δ] in
/-- An event that is saved keeps the accounts, if its message stands behind those that were saved
before. -/
theorem store (h : Accounts topic own e q saved inHand) {s : TopicSettings} {event : RowEvent}
    {m : Message} {key : String}
    (feeds : own event.tableId ↔ s.topic = topic)
    (ordered : s.topic = topic →
      q.Ordered ((Saved.ofTopic topic saved).map Saved.message ++ [m])) :
    Accounts topic own
      { e with registry :=
          e.registry.putWindow event.tableId s.topic (event.stored s m e.registry key) }
      q (saved ++ [⟨s.topic, event, m, e.destination.accepted.length⟩]) inHand := by
  have table : (event.stored s m e.registry key).tableId = event.tableId :=
    RowEvent.tableId_stored h.arranged
  have filled := event.isEmpty_stored s m e.registry key
  have rows : ∀ row ∈ Saved.ofTopic topic saved, row.event.tableId = event.tableId → ∀ b w,
      e.registry.Holds event.tableId b w → row.message.Covered w.lastMessages →
        (event.stored s m e.registry key).isEmpty = false ∧
          row.message.Covered (event.stored s m e.registry key).lastMessages := by
    intro row mem table b w holds covered
    have same : s.topic = topic := feeds.1 (table ▸ (h.owned row mem).1)
    have before : row.message.Precedes m :=
      (ordered same).precedes (List.mem_map_of_mem mem) (List.mem_singleton_self m)
    exact ⟨filled, RowEvent.covered_stored h.arranged holds covered before key⟩
  have split := Saved.ofTopic_append topic saved
    [⟨s.topic, event, m, e.destination.accepted.length⟩]
  by_cases same : s.topic = topic
  · rw [Saved.ofTopic_singleton_self same] at split
    have later : ∀ c ∈ q.commits.flatten, c.Precedes m := by
      intro c mem
      obtain ⟨row, hrow, rfl⟩ := h.collected c (List.mem_append_right _ mem)
      exact (ordered same).precedes (List.mem_map_of_mem hrow) (List.mem_singleton_self m)
    have isNew : Saved.IsNew ⟨s.topic, event, m, e.destination.accepted.length⟩ own
        e.destination.accepted q.commits.flatten event.tableId
        (event.stored s m e.registry key) :=
      ⟨feeds.2 same, rfl, rfl, filled, Window.mem_record_self _ m, later⟩
    refine h.putWindow feeds table (RowEvent.tidy_stored h.arranged) ?_ ?_ ?_ rows ?_
    · rw [split, List.map_append]
      exact ordered same
    · intro row mem
      rw [split]
      exact List.mem_append_left _ mem
    · intro row mem
      rw [split] at mem
      rcases List.mem_append.1 mem with mem | mem
      · exact .inl mem
      · rw [List.mem_singleton.1 mem]
        exact .inr isNew
    · intro _ x mem
      rcases RowEvent.mem_lastMessages_stored mem with hx | buffered
      · refine .inr ⟨_, ?_, hx.symm, isNew⟩
        rw [split]
        exact List.mem_append_right _ (List.mem_singleton_self _)
      · exact .inl buffered
  · rw [Saved.ofTopic_singleton_of_ne same, List.append_nil] at split
    refine h.putWindow feeds table (RowEvent.tidy_stored h.arranged) ?_ ?_ ?_ rows
      fun o => absurd (feeds.1 o) same
    · rw [split]
      exact h.ordered
    · intro row mem
      rwa [split]
    · intro row mem
      rw [split] at mem
      exact .inl mem

omit [Destination δ] in
/-- The intake of a message keeps the accounts, if the message stands behind those that were saved
before. -/
theorem ingest (h : Accounts topic own e q saved inHand) {s : TopicSettings} {mode : Mode}
    {now : Instant} {m : Message} {more : List Saved}
    (step : Run.IngestStep e s mode now m e' more)
    (feeds : ∀ event, RowEvent.ofMessage s mode now m = .ok (some event) →
      (own event.tableId ↔ s.topic = topic))
    (ordered : s.topic = topic →
      q.Ordered ((Saved.ofTopic topic saved).map Saved.message ++ [m])) :
    Accounts topic own e' q (saved ++ more) inHand := by
  cases step with
  | skipped =>
    rw [List.append_nil]
    exact h
  | @refused event shaped =>
    rw [List.append_nil]
    exact h.refuse (feeds event shaped)
  | @saved event shaped key => exact h.store (feeds event shaped) ordered

end Accounts

end Engine

end ChangeCapture
