import ChangeCapture.Proofs.Engine.Books

/-!
# Topics that acknowledge each message

In a serial run, a topic whose messages are acknowledged one by one commits
each saved message once, and none is lost (`Run.acknowledges_each_once`): the
books of the topic are its saved messages in another order, and a flush in which
no table of the topic failed or was left alone empties all places but the
commits.
-/

namespace ChangeCapture

variable {δ : Type} [Destination δ] {topic : String} {own : TableId → Prop}

namespace Run

open Engine (Accounts)

omit [Destination δ] in
/-- The reader of a topic saves events into the tables of the topic, and the others do not. -/
theorem InOrder.fits {r : Run δ} (h : r.InOrder topic own) (orderly : r.engine.registry.Orderly)
    {s : TopicSettings} {t : TableId} (feeds : own t ↔ s.topic = topic) :
    (r.engine.registry.getOrNew t s.topic).topic = topic ↔ s.topic = topic := by
  obtain ⟨q, h⟩ := h
  cases hb : r.engine.registry.get? t with
  | none =>
    rw [TableRegistry.getOrNew_of_none _ hb]
    rfl
  | some b =>
    rw [TableRegistry.getOrNew_of_get? _ hb, ← feeds]
    constructor
    · intro mine
      exact ((h.arranged.listed t).1 ((orderly.listed topic t).2 ⟨b, hb, mine⟩)).1
    · intro o
      obtain ⟨b', hb', mine⟩ :=
        (orderly.listed topic t).1 ((h.arranged.listed t).2 ⟨o, b, hb⟩)
      rwa [← Option.some.inj (hb.symm.trans hb')] at mine

/-- The rows of a topic are in order, and its messages are in its books. -/
def IsBooked (topic : String) (own : TableId → Prop) (mode : AckMode) (r : Run δ) : Prop :=
  r.InOrder topic own ∧ r.KeepsBooks topic mode

theorem IsBooked.step {mode : AckMode} {r r' : Run δ} (h : r.IsBooked topic own mode)
    (step : Step topic own r r') : r'.IsBooked topic own mode := by
  obtain ⟨inOrder, booked⟩ := h
  refine ⟨inOrder.step step, ?_⟩
  cases step with
  | intake intake =>
    cases intake with
    | push t partition key value => exact booked.push t partition key value
    | process s written now feeds =>
      refine booked.process fun m event hm shaped _ => ?_
      obtain ⟨q, kept⟩ := booked
      exact inOrder.fits kept.orderly (feeds m event hm shaped)
  | flush order now => exact booked.flush order now

theorem IsBooked.reaches {mode : AckMode} {r r' : Run δ} (h : r.IsBooked topic own mode)
    (path : Reaches topic own r r') : r'.IsBooked topic own mode := by
  induction path with
  | refl => exact h
  | tail _ step ih => exact ih.step step

omit [Destination δ] in
/-- If nothing is left to be committed, the books of the topic are its commits. -/
theorem books_of_settled {e : Engine (Ledger δ) MessageQueue}
    (arranged : e.registry.Arranged topic own) (settled : e.Settled topic own) :
    e.books topic = e.committed topic := by
  have pending : e.registry.pending topic = [] := by
    refine List.flatMap_eq_nil_iff.2 fun t listed => ?_
    have vacant := settled.vacant t ((arranged.listed t).1 listed).1
    exact vacant.messagesOf fun b w hb hw => (arranged.tidy t b w hb hw).2
  simp only [Engine.books]
  rw [settled.held, pending]
  rfl

/-- After a flush that takes the topic, and in which none of its tables failed or was left alone,
the commits are the saved messages. -/
theorem IsBooked.commits_of_complete {r : Run δ} (h : r.IsBooked topic own .everyMessage)
    {order : FlushOrder} {now : Nat} (takes : order.Takes topic)
    (complete : FlushOutcomes.areComplete (r.engine.outcomes order now topic)) :
    ∃ q, (r.flush order now).queue? topic = some q ∧
      q.commits.flatten.Perm (r.messagesOf topic) := by
  obtain ⟨⟨q, accounts⟩, booked⟩ := h
  obtain ⟨q', kept⟩ := booked.flush order now
  have perm := kept.booked.perm_of_alone kept.gives.alike_taken kept.gives.ordered.line
  refine ⟨q', kept.source, ?_⟩
  cases none : Saved.ofTopic topic r.saved with
  | nil =>
    have books : (r.flush order now).engine.books topic = [] := by
      refine List.perm_nil.1 (perm.trans (.of_eq ?_))
      show (Saved.ofTopic topic r.saved).map Saved.message = []
      rw [none]
      rfl
    have commits : q'.commits.flatten = [] := by
      rw [← Engine.committed_of_source kept.source]
      exact (List.append_eq_nil_iff.1 (List.append_eq_nil_iff.1 books).2).2
    simp [commits, messagesOf, none]
  | cons s rest =>
    have mem : s ∈ Saved.ofTopic topic r.saved := by
      rw [none]
      exact List.mem_cons_self
    obtain ⟨_, accounts', settled⟩ := settled_of_complete accounts takes complete mem
    rw [books_of_settled accounts'.arranged settled,
      Engine.committed_of_source kept.source] at perm
    exact perm

/-- What holds of a topic whose messages are acknowledged one by one. -/
structure AcknowledgesOnce (r : Run δ) (topic : String) (own : TableId → Prop)
    (q : MessageQueue) : Prop where
  /-- The tables of the topic that are there are listed under it. -/
  listed : ∀ t, t ∈ r.engine.registry.tablesOf topic ↔
    own t ∧ ∃ b, r.engine.registry.get? t = some b
  /-- No two saved messages stand at one place. -/
  distinct : ((r.messagesOf topic).map Message.position).Nodup
  /-- The saved messages are in the buffers of the tables, held, or committed, each in one place. -/
  places : ((r.engine.registry.pending topic ++ r.engine.held.getD topic [] ++
    q.commits.flatten).map Message.position).Perm ((r.messagesOf topic).map Message.position)
  /-- No place is committed twice. -/
  once : (q.commits.flatten.map Message.position).Nodup
  /-- Every commit is sorted by partition and then by offset. -/
  sorted : ∀ c ∈ q.commits, c.Pairwise Message.Before
  /-- After a flush in which no table of the topic failed or was left alone, all are committed. -/
  complete : ∀ order now, order.Takes topic →
    FlushOutcomes.areComplete (r.engine.outcomes order now topic) →
    ∃ q', (r.flush order now).queue? topic = some q' ∧
      (q'.commits.flatten.map Message.position).Perm ((r.messagesOf topic).map Message.position)

/-- In every state of a serial run, a topic whose messages are acknowledged one by one has each
saved message in one place, and commits each once. -/
theorem acknowledges_each_once {thresholds : Thresholds} {destination : δ}
    {sources : SortedMap String MessageQueue} {retry : RetryPolicy}
    (feed : sources.get? topic = some (.new topic .everyMessage)) {r : Run δ}
    (path : Reaches topic own (start thresholds destination sources retry) r) :
    ∃ q, r.queue? topic = some q ∧ r.AcknowledgesOnce topic own q := by
  have booked : r.IsBooked topic own .everyMessage :=
    IsBooked.reaches ⟨inOrder_start own feed thresholds destination retry,
      keepsBooks_start feed thresholds destination retry⟩ path
  obtain ⟨_, accounts⟩ := booked.1
  obtain ⟨q, kept⟩ := booked.2
  have perm := kept.booked.perm_of_alone kept.gives.alike_taken kept.gives.ordered.line
  have distinct : ((r.messagesOf topic).map Message.position).Nodup :=
    Message.nodup_positions kept.gives.ordered.line
  have places : (r.engine.registry.pending topic ++ r.engine.held.getD topic [] ++
      q.commits.flatten).Perm (r.messagesOf topic) := by
    refine List.Perm.trans ?_ perm
    simp only [Engine.books]
    rw [Engine.committed_of_source kept.source, ← List.append_assoc]
    exact List.perm_append_comm.append_right _
  refine ⟨q, kept.source, accounts.arranged.listed, distinct, places.map _, ?_, kept.sorted, ?_⟩
  · have nodup := (places.map Message.position).nodup_iff.2 distinct
    rw [List.map_append] at nodup
    exact nodup.of_append_right
  · intro order now takes complete
    obtain ⟨q', source, commits⟩ := booked.commits_of_complete takes complete
    exact ⟨q', source, commits.map _⟩

/-- A run over one topic whose messages are acknowledged one by one, before its first step.  One
write of the table `items` is going to fail. -/
def sampleAlone : Run TrialStore :=
  start ⟨10, 100⟩ ((TrialStore.new (.new 1000)).failNextFor "items" 1)
    (SortedMap.empty.insert "orders" (.new "orders" .everyMessage)) (.new 0 0 1 fun _ => true)

/-- The write of `items` fails, so the message of `orders` is held.  Then there is another one. -/
def sampleHeld : Run TrialStore :=
  (((sampleAlone.sampleFeed "orders" "1").sampleFeed "items" "2").flush .shutdown 0).sampleFeed
    "orders" "3"

theorem acknowledges_each_once_sampleHeld :
    ((sampleHeld.messagesOf "orders").length = 3 ∧
      (sampleHeld.engine.held.getD "orders" []).length = 1 ∧
      FlushOutcomes.areComplete (sampleHeld.engine.outcomes .shutdown 0 "orders")) ∧
      ∃ q, sampleHeld.queue? "orders" = some q ∧
        sampleHeld.AcknowledgesOnce "orders" (fun _ => True) q := by
  refine ⟨by decide +kernel, ?_⟩
  have fed := (takes_sampleFeed sampleAlone "orders" "1").trans (takes_sampleFeed _ "items" "2")
  have flushed := fed.reaches.tail (.flush _ .shutdown 0)
  exact acknowledges_each_once (SortedMap.get?_insert_self _ _ _)
    (flushed.trans (takes_sampleFeed _ "orders" "3").reaches)

end Run

end ChangeCapture
