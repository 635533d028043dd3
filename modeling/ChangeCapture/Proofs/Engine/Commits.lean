import ChangeCapture.Proofs.Engine.Gathered

/-!
# Commits of serial runs

The end of the flush of a topic commits or holds what is in hand
(`Engine.Accounts.settle`).  Every step of a serial run keeps the accounts of a
topic, so its commits are safe, they follow each other, and after a flush in
which no table of the topic failed or was left alone they are complete
(`Run.commits_safe_and_exact`).

The accounts tell that the rows up to a committed message are gone.  That they were
written comes from what the windows gather, which does not depend on the topic
(`Run.GathersRows`).
-/

namespace ChangeCapture

variable {δ : Type} [Destination δ] {topic : String} {own : TableId → Prop}

namespace Engine

variable {e e' : Engine (Ledger δ) MessageQueue} {q : MessageQueue} {saved : List Saved}

/-- No message of the topic is left to be committed. -/
structure Settled (e : Engine (Ledger δ) MessageQueue) (topic : String) (own : TableId → Prop) :
    Prop where
  /-- No row of its tables is buffered. -/
  vacant : ∀ t, own t → e.registry.Vacant t
  /-- No message is held. -/
  held : e.held.getD topic [] = []

omit [Destination δ] in
theorem not_buffers_of_vacant (arranged : e.registry.Arranged topic own) {t : TableId}
    (vacant : e.registry.Vacant t) (m : Message) : ¬ e.registry.Buffers t m := by
  rintro ⟨b, w, hb, hw, mem⟩
  have empty := vacant b hb
  simp only [TableBuffer.isEmpty, hw, Option.all_some] at empty
  rw [(arranged.tidy t b w hb hw).2.quiet empty] at mem
  cases mem

namespace Accounts

/-! ## The end of a flush -/

omit [Destination δ] in
/-- Messages in hand and held ones may be summarised and held. -/
theorem hold {inHand : List Message} (h : Accounts topic own e q saved inHand) :
    Accounts topic own
      { e with
        held := (e.held.erase topic).insert topic
          (Message.summary (inHand ++ e.held.getD topic [])) }
      q saved [] := by
  have held : ((e.held.erase topic).insert topic
      (Message.summary (inHand ++ e.held.getD topic []))).getD topic [] =
        Message.summary (inHand ++ e.held.getD topic []) := by
    rw [SortedMap.getD_insert, if_pos rfl]
  have summary_mem : ∀ m, m ∈ Message.summary (inHand ++ e.held.getD topic []) →
      m ∈ inHand ++ e.held.getD topic [] := fun m => Message.mem_of_mem_summary
  constructor
  · exact h.arranged
  · exact h.source
  · exact h.ordered
  · exact h.marks
  · exact h.owned
  · intro s mem
    refine (h.placed s mem).imp id fun ⟨gone, m, hm, part, le⟩ => ⟨gone, ?_⟩
    rw [held, List.nil_append]
    rcases List.mem_append.1 hm with hm | hm
    · have covered : s.message.Covered (inHand ++ e.held.getD topic []) := ⟨m, hm, part, le⟩
      exact covered.summary.append_left _
    · exact ⟨m, List.mem_append_right _ hm, part, le⟩
  · exact h.buffered
  · intro m mem
    rw [held, List.nil_append] at mem
    refine h.collected m ?_
    rcases List.mem_append.1 mem with mem | mem
    · exact List.mem_append_left _ (summary_mem m mem)
    · exact List.mem_append_right _ mem
  · intro c mem m out
    refine h.ahead c mem m ?_
    rcases out with inH | mem | buffered
    · cases inH
    · rw [held] at mem
      rcases List.mem_append.1 (summary_mem m mem) with mem | mem
      · exact .inl mem
      · exact .inr (.inl mem)
    · exact .inr (.inr buffered)
  · exact h.safe
  · exact h.increasing

omit [Destination δ] in
/-- If no row of the topic is buffered, messages in hand and held ones may be committed. -/
theorem commitAll {inHand : List Message} (h : Accounts topic own e q saved inHand)
    (vacant : ∀ t, own t → e.registry.Vacant t) :
    Accounts topic own
      { e with
        held := e.held.erase topic
        sources := e.sources.insert topic
          (q.commit (Message.summary (inHand ++ e.held.getD topic []))) }
      (q.commit (Message.summary (inHand ++ e.held.getD topic []))) saved [] := by
  have held : (e.held.erase topic).getD topic [] = [] := by
    rw [SortedMap.getD_erase, if_pos rfl]
  have commits : (q.commit (Message.summary (inHand ++ e.held.getD topic []))).commits.flatten =
      q.commits.flatten ++ Message.summary (inHand ++ e.held.getD topic []) := by
    simp [MessageQueue.commit]
  have summary_mem : ∀ m, m ∈ Message.summary (inHand ++ e.held.getD topic []) →
      m ∈ inHand ++ e.held.getD topic [] := fun m => Message.mem_of_mem_summary
  have gone : ∀ s ∈ Saved.ofTopic topic saved, s.IsGone e.destination.accepted ∧
      s.message.Covered (inHand ++ e.held.getD topic [] ++ q.commits.flatten) := by
    intro s mem
    rcases h.placed s mem with ⟨b, w, holds, -⟩ | placed
    · exact absurd holds (vacant _ (h.owned s mem).1).not_holds
    · exact placed
  constructor
  · exact h.arranged
  · exact SortedMap.get?_insert_self _ _ _
  · exact h.ordered.of_frame rfl rfl
  · exact h.marks.commit _
  · exact h.owned
  · intro s mem
    obtain ⟨gone, m, hm, part, le⟩ := gone s mem
    refine .inr ⟨gone, ?_⟩
    rw [held, commits, List.nil_append, List.nil_append]
    rcases List.mem_append.1 hm with hm | hm
    · have covered : s.message.Covered (inHand ++ e.held.getD topic []) := ⟨m, hm, part, le⟩
      exact covered.summary.append_right _
    · exact ⟨m, List.mem_append_left _ hm, part, le⟩
  · intro t m o buffered
    exact absurd buffered (not_buffers_of_vacant h.arranged (vacant t o) m)
  · intro m mem
    rw [held, commits, List.nil_append, List.nil_append] at mem
    refine h.collected m ?_
    rcases List.mem_append.1 mem with mem | mem
    · exact List.mem_append_right _ mem
    · exact List.mem_append_left _ (summary_mem m mem)
  · intro c mem m out
    rcases out with inH | mem | ⟨t, o, buffered⟩
    · cases inH
    · rw [held] at mem
      cases mem
    · exact absurd buffered (not_buffers_of_vacant h.arranged (vacant t o) m)
  · intro c mem s hs same le
    exact (gone s hs).1
  · show (q.commits ++ [_]).Pairwise _
    rw [List.pairwise_append]
    refine ⟨h.increasing, List.pairwise_singleton _ _, ?_⟩
    intro ms hms ms' hms' c hc m hm
    rw [List.mem_singleton.1 hms'] at hm
    refine h.ahead c (List.mem_flatten.2 ⟨ms, hms, hc⟩) m ?_
    rcases List.mem_append.1 (summary_mem m hm) with mem | mem
    · exact .inl mem
    · exact .inr (.inl mem)

omit [Destination δ] in
/-- The end of the flush of a topic keeps its accounts.  If no table failed or was left alone,
nothing is left to be committed. -/
theorem settle {outcomes : List (Outcome TableFlush)}
    (h : Accounts topic own e q saved (FlushOutcomes.messages outcomes))
    (through : FlushOutcomes.areComplete outcomes → ∀ t, own t → e.registry.Vacant t) :
    ∃ q', Accounts topic own (e.settle topic q outcomes).1 q' saved [] ∧
      (FlushOutcomes.areComplete outcomes → (e.settle topic q outcomes).1.Settled topic own) := by
  by_cases none : e.due topic outcomes = []
  · have inHand := (List.append_eq_nil_iff.1 none).1
    have held := (List.append_eq_nil_iff.1 none).2
    rw [inHand] at h
    rw [settle_of_nil none]
    have erased : (e.held.erase topic).getD topic [] = [] := by
      rw [SortedMap.getD_erase, if_pos rfl]
    refine ⟨q, h.frame rfl rfl rfl (erased.trans held.symm), fun complete => ?_⟩
    exact ⟨through complete, erased⟩
  · cases complete : FlushOutcomes.areComplete outcomes with
    | true =>
      rw [settle_of_complete none complete]
      refine ⟨_, h.commitAll (through complete), fun _ => ⟨through complete, ?_⟩⟩
      show (e.held.erase topic).getD topic [] = []
      rw [SortedMap.getD_erase, if_pos rfl]
    | false =>
      rw [settle_of_incomplete none complete]
      exact ⟨q, h.hold, nofun⟩

end Accounts

omit [Destination δ] in
/-- If nothing is left to be committed, the committed offset of a partition is the greatest one of
its rows. -/
theorem Accounts.exact (h : Accounts topic own e q saved []) (settled : e.Settled topic own)
    {s : Saved} (mem : s ∈ Saved.ofTopic topic saved) :
    ∃ top ∈ Saved.ofTopic topic saved, top.message.partition = s.message.partition ∧
      (∀ s' ∈ Saved.ofTopic topic saved, s'.message.partition = s.message.partition →
        s'.message.offset ≤ top.message.offset) ∧
      q.committed.get? s.message.partition = some top.message.offset := by
  have covered : ∀ s ∈ Saved.ofTopic topic saved, s.message.Covered q.commits.flatten := by
    intro s mem
    rcases h.placed s mem with ⟨b, w, holds, -⟩ | ⟨-, covered⟩
    · exact absurd holds (settled.vacant _ (h.owned s mem).1).not_holds
    · rwa [settled.held] at covered
  obtain ⟨c, hc, part, -⟩ := covered s mem
  have mark := h.marks s.message.partition
  cases hm : q.committed.get? s.message.partition with
  | none =>
    rw [hm] at mark
    exact absurd part (mark c hc)
  | some o =>
    rw [hm] at mark
    obtain ⟨⟨m, committed, part, rfl⟩, greatest⟩ := mark
    obtain ⟨top, htop, rfl⟩ := h.collected m (List.mem_append_right _ committed)
    refine ⟨top, htop, part, ?_, rfl⟩
    intro s' mem' part'
    obtain ⟨c, hc, same, le⟩ := covered s' mem'
    exact Int.le_trans le (greatest c hc (same.trans part'))

/-! ## Topics -/

theorem Accounts.flushTopic_self (h : Accounts topic own e q saved []) {tables : List TableId}
    (lists : tables = e.registry.tablesOf topic) (cooldown : Option Nat) (now : Nat) :
    ∃ q', Accounts topic own (e.flushTopic topic tables cooldown now).state q' saved [] ∧
      (FlushOutcomes.areComplete (e.flushTables cooldown now tables).2.1 →
        (e.flushTopic topic tables cooldown now).state.Settled topic own) := by
  have all : ∀ t ∈ tables, own t := fun t mem => ((h.arranged.listed t).1 (lists ▸ mem)).1
  have flushed := h.flushTables cooldown now all
  rw [List.nil_append] at flushed
  rw [flushTopic_state h.source]
  refine flushed.settle fun complete t o b hb => ?_
  have mem : t ∈ tables := by
    have listed := (flushed.arranged.listed t).2 ⟨o, b, hb⟩
    unfold TableRegistry.tablesOf at lists listed
    rwa [(e.flushTables_frame cooldown now tables).1, ← lists] at listed
  exact vacant_of_complete h.arranged.named complete t mem b hb

theorem Accounts.flushTopic_other (h : Accounts topic own e q saved []) {other : String}
    (ne : other ≠ topic) {tables : List TableId} (lists : tables = e.registry.tablesOf other)
    (cooldown : Option Nat) (now : Nat) :
    Accounts topic own (e.flushTopic other tables cooldown now).state q saved [] ∧
      (e.Settled topic own →
        (e.flushTopic other tables cooldown now).state.Settled topic own) := by
  cases hs : e.sources.get? other with
  | none =>
    rw [flushTopic_of_stray hs]
    exact ⟨h, id⟩
  | some source =>
    rw [flushTopic_state hs]
    obtain ⟨registry, destination⟩ :=
      settle_keeps (e.flushTables cooldown now tables).1 other source
        (e.flushTables cooldown now tables).2.1
    obtain ⟨sources, held⟩ :=
      settle_frame (e.flushTables cooldown now tables).1 ne.symm source
        (e.flushTables cooldown now tables).2.1
    have foreign : ∀ t ∈ tables, ¬ own t := fun t mem =>
      h.arranged.foreign other ne t (lists ▸ mem)
    refine ⟨(h.flushTables_foreign cooldown now foreign).frame registry (by rw [destination])
      sources held, fun settled => ⟨fun t o => ?_, ?_⟩⟩
    · rw [registry]
      exact (flushTables_induct (P := fun e => e.registry.Named ∧ e.registry.Vacant t) tables
        cooldown now (fun _ step h => ⟨step.named h.1, step.vacant h.1 h.2⟩) e
        ⟨h.arranged.named, settled.vacant t o⟩).2
    · rw [held, (e.flushTables_frame cooldown now tables).2.2, settled.held]

/-- The flush of topics keeps the accounts of each. -/
theorem Accounts.flushTopics {topics : List (String × List TableId)}
    (h : Accounts topic own e q saved [])
    (lists : ∀ p ∈ topics, p.2 = e.registry.tablesOf p.1) (once : (topics.map Prod.fst).Nodup)
    (cooldown : Option Nat) (now : Nat) :
    ∃ q', Accounts topic own (e.flushTopics cooldown now topics).1 q' saved [] ∧
      (topic ∉ topics.map Prod.fst → e.Settled topic own →
        (e.flushTopics cooldown now topics).1.Settled topic own) ∧
      (topic ∈ topics.map Prod.fst →
        FlushOutcomes.areComplete (e.tableOutcomes cooldown now topic topics) →
        (e.flushTopics cooldown now topics).1.Settled topic own) := by
  induction topics generalizing e q with
  | nil => exact ⟨q, h, fun _ settled => settled, fun mem => by cases mem⟩
  | cons first rest ih =>
    obtain ⟨other, tables⟩ := first
    obtain ⟨notAgain, once⟩ := List.nodup_cons.1 once
    have firstLists := lists _ List.mem_cons_self
    have restLists : ∀ p ∈ rest, p.2 =
        (e.flushTopic other tables cooldown now).state.registry.tablesOf p.1 := by
      intro p mem
      simp only [TableRegistry.tablesOf]
      rw [flushTopic_topics]
      exact lists p (List.mem_cons_of_mem _ mem)
    rw [flushTopics_cons]
    by_cases same : other = topic
    · subst same
      obtain ⟨q', h', settled⟩ := h.flushTopic_self firstLists cooldown now
      obtain ⟨q'', h'', kept, -⟩ := ih h' restLists once
      refine ⟨q'', h'', fun notIn => absurd List.mem_cons_self notIn, fun _ complete => ?_⟩
      refine kept notAgain (settled ?_)
      simpa only [tableOutcomes, if_true] using complete
    · obtain ⟨h', settled⟩ := h.flushTopic_other same firstLists cooldown now
      obtain ⟨q'', h'', kept, reached⟩ := ih h' restLists once
      refine ⟨q'', h'', ?_, ?_⟩
      · intro notIn settledBefore
        exact kept (fun mem => notIn (List.mem_cons_of_mem _ mem)) (settled settledBefore)
      · intro isIn complete
        rcases List.mem_cons.1 isIn with rfl | isIn
        · exact absurd rfl same
        · refine reached isIn ?_
          simpa only [tableOutcomes, if_neg same] using complete

end Engine

/-! ## Runs -/

namespace Run

open Engine (Accounts)

/-- The accounts of a topic hold between two steps. -/
def InOrder (topic : String) (own : TableId → Prop) (r : Run δ) : Prop :=
  ∃ q, Accounts topic own r.engine q r.saved []

omit [Destination δ] in
theorem inOrder_start (own : TableId → Prop) {sources : SortedMap String MessageQueue}
    {mode : AckMode} (feed : sources.get? topic = some (.new topic mode)) (thresholds : Thresholds)
    (destination : δ) (retry : RetryPolicy) :
    (start thresholds destination sources retry).InOrder topic own := by
  have noRow : ∀ s, s ∉ Saved.ofTopic topic [] := fun _ => List.not_mem_nil
  have noMessage : ∀ m,
      m ∉ [] ++ (SortedMap.empty : SortedMap String (List Message)).getD topic [] ++
        (MessageQueue.new topic mode).commits.flatten := fun _ => List.not_mem_nil
  refine ⟨_, TableRegistry.arranged_new thresholds, feed, MessageQueue.ordered_new topic mode,
    MessageQueue.marks_empty, ?_, ?_, ?_, ?_, ?_, ?_, List.Pairwise.nil⟩
  · exact fun s mem => absurd mem (noRow s)
  · exact fun s mem => absurd mem (noRow s)
  · rintro t m _ ⟨b, w, hb, -⟩
    cases hb
  · exact fun m mem => absurd mem (noMessage m)
  · exact fun c mem => absurd mem List.not_mem_nil
  · exact fun c mem => absurd mem List.not_mem_nil

omit [Destination δ] in
theorem InOrder.push {r : Run δ} (h : r.InOrder topic own) (t : String) (partition : Int)
    (key value : Option ByteArray) : (r.push t partition key value).InOrder topic own := by
  obtain ⟨q, h⟩ := h
  by_cases same : topic = t
  · subst same
    refine ⟨q.push partition key value, h.arranged, ?_, h.ordered.push partition key value,
      h.marks, h.owned, h.placed, h.buffered, h.collected, h.ahead, h.safe, h.increasing⟩
    show (r.engine.sources.modify topic _).get? topic = _
    rw [SortedMap.get?_modify, if_pos rfl, h.source]
    rfl
  · refine ⟨q, h.frame rfl rfl ?_ rfl⟩
    show (r.engine.sources.modify t _).get? topic = _
    rw [SortedMap.get?_modify, if_neg same]

omit [Destination δ] in
theorem InOrder.process {r : Run δ} (h : r.InOrder topic own) {s : TopicSettings} {mode : Mode}
    {now : Instant} (feeds : r.Feeds topic own s mode now) :
    (r.process s mode now).InOrder topic own := by
  cases hm : r.next? s.topic with
  | none =>
    rw [process_of_none hm]
    exact h
  | some m =>
    obtain ⟨q, h⟩ := h
    obtain ⟨source, source', more, hsource, read, step, saved⟩ := process_of_message hm mode now
    have feeds := fun event => feeds m event hm
    obtain ⟨q', advanced, ordered⟩ := h.advance hsource read
    refine ⟨q', ?_⟩
    rw [saved]
    exact advanced.ingest step feeds ordered

theorem InOrder.flush {r : Run δ} (h : r.InOrder topic own) (order : FlushOrder) (now : Nat) :
    (r.flush order now).InOrder topic own := by
  obtain ⟨q, h⟩ := h
  simp only [Run.flush, Engine.flush]
  cases selected : r.engine.selection order with
  | error f => exact ⟨q, h⟩
  | ok topics =>
    obtain ⟨q', h', -⟩ := h.flushTopics (Engine.selection_lists selected)
      (Engine.selection_nodup selected) order.cooldown now
    exact ⟨q', h'⟩

/-- A step keeps the accounts. -/
theorem InOrder.step {r r' : Run δ} (h : r.InOrder topic own) (step : Step topic own r r') :
    r'.InOrder topic own := by
  cases step with
  | intake intake =>
    cases intake with
    | push t partition key value => exact h.push t partition key value
    | process s mode now feeds => exact h.process feeds
  | flush order now => exact h.flush order now

/-- A run keeps the accounts. -/
theorem InOrder.reaches {r r' : Run δ} (h : r.InOrder topic own) (path : Reaches topic own r r') :
    r'.InOrder topic own := by
  induction path with
  | refl => exact h
  | tail _ step ih => exact ih.step step

/-- A flush that takes a topic, and in which no table of the topic failed or was left alone, leaves
nothing to be committed. -/
theorem settled_of_complete {r : Run δ} {q : MessageQueue}
    (h : Accounts topic own r.engine q r.saved []) {order : FlushOrder} {now : Nat}
    (takes : order.Takes topic)
    (complete : FlushOutcomes.areComplete (r.engine.outcomes order now topic))
    {s : Saved} (mem : s ∈ Saved.ofTopic topic r.saved) :
    ∃ q', Accounts topic own (r.flush order now).engine q' r.saved [] ∧
      (r.flush order now).engine.Settled topic own := by
  have listed := (h.arranged.listed _).2 ⟨(h.owned s mem).1, (h.owned s mem).2.1⟩
  have fed : r.engine.sources.contains topic := by
    rw [SortedMap.contains, h.source]
    rfl
  obtain ⟨topics, selected, isIn⟩ := Engine.selection_of_takes takes fed listed
  obtain ⟨q', h', -, settled⟩ := h.flushTopics (Engine.selection_lists selected)
    (Engine.selection_nodup selected) order.cooldown now
  unfold Engine.outcomes at complete
  unfold Run.flush Engine.flush
  simp only [selected] at complete ⊢
  exact ⟨q', h', settled isIn complete⟩

/-- What holds of the commits to the queue of a topic. -/
structure SafeCommits (r : Run δ) (topic : String) (q : MessageQueue) : Prop where
  /-- All rows up to a committed message were written. -/
  safe : ∀ c ∈ q.commits.flatten, ∀ s ∈ Saved.ofTopic topic r.saved,
    s.message.partition = c.partition → s.message.offset ≤ c.offset →
      s.IsWritten r.saved r.accepted
  /-- From one commit to the next the offsets of a partition increase. -/
  increasing : q.commits.Pairwise fun ms ms' => ∀ m ∈ ms, ∀ m' ∈ ms', m.Precedes m'
  /-- After a flush in which no table of the topic failed or was left alone, the committed offset
  of each partition that has a row is the greatest one of its rows. -/
  exact : ∀ order now, order.Takes topic →
    FlushOutcomes.areComplete (r.engine.outcomes order now topic) →
    ∀ s ∈ Saved.ofTopic topic r.saved, ∃ q', ∃ top ∈ Saved.ofTopic topic r.saved,
      (r.flush order now).queue? topic = some q' ∧
      top.message.partition = s.message.partition ∧
      (∀ s' ∈ Saved.ofTopic topic r.saved, s'.message.partition = s.message.partition →
        s'.message.offset ≤ top.message.offset) ∧
      q'.committed.get? s.message.partition = some top.message.offset

/-- In every state of a serial run the commits of a topic are safe, increasing and exact. -/
theorem commits_safe_and_exact {thresholds : Thresholds} {destination : δ}
    {sources : SortedMap String MessageQueue} {retry : RetryPolicy} {mode : AckMode}
    (feed : sources.get? topic = some (.new topic mode)) {r : Run δ}
    (path : Reaches topic own (start thresholds destination sources retry) r) :
    ∃ q, r.queue? topic = some q ∧ r.SafeCommits topic q := by
  obtain ⟨q, h⟩ := (inOrder_start own feed thresholds destination retry).reaches path
  have gathers := (gathersRows_start thresholds destination sources retry).reaches path
  refine ⟨q, h.source, ?_, h.increasing, ?_⟩
  · intro c mem s hs same le
    exact gathers.isWritten (Saved.mem_ofTopic.1 hs).1 (h.safe c mem s hs same le)
  · intro order now takes complete s mem
    obtain ⟨q', h', settled⟩ := settled_of_complete h takes complete mem
    obtain ⟨top, htop, exact⟩ := h'.exact settled mem
    exact ⟨q', top, htop, h'.source, exact⟩

/-- Two tables are fed, and a row of one of them is updated. -/
def sampleFed : Run TrialStore :=
  (((sampleStart 1).sampleFeed "orders" "1").sampleFeed "items" "2").sampleFeed "orders" "1"

/-- The write of one table fails in the first flush.  The second flush commits, and so does a third
one after another row. -/
def sampleRun : Run TrialStore :=
  (((sampleFed.flush .shutdown 0).flush .shutdown 0).sampleFeed "items" "3").flush .shutdown 0

/-- The offsets of each commit to the queue of a topic. -/
def commitOffsets (r : Run δ) (topic : String) : Option (List (List Int)) :=
  (r.queue? topic).map fun q => q.commits.map fun ms => ms.map Message.offset

theorem commits_safe_and_exact_sampleRun :
    (sampleRun.saved.length = 4 ∧ sampleRun.accepted.length = 3) ∧
      sampleRun.commitOffsets "orders" = some [[2], [3]] ∧
      ∃ q, sampleRun.queue? "orders" = some q ∧ sampleRun.SafeCommits "orders" q := by
  refine ⟨by decide +kernel, by decide +kernel, ?_⟩
  have fed : Takes "orders" (fun _ => True) (sampleStart 1) sampleFed :=
    ((takes_sampleFeed _ "orders" "1").trans (takes_sampleFeed _ "items" "2")).trans
      (takes_sampleFeed _ "orders" "1")
  have flushed := (fed.reaches.tail (.flush _ .shutdown 0)).tail (.flush _ .shutdown 0)
  have path := (flushed.trans (takes_sampleFeed _ "items" "3").reaches).tail (.flush _ .shutdown 0)
  exact commits_safe_and_exact (SortedMap.get?_insert_self _ _ _) path

end Run

end ChangeCapture
