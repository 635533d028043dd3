import ChangeCapture.Proofs.Engine.Commits
import ChangeCapture.Proofs.Engine.Listed
import ChangeCapture.Proofs.Message.Booked

/-!
# The books of a topic

The books of a topic are the messages that are held, those that wait in the
buffers of its tables, and those that were committed (`Engine.books`).  A flush
moves messages from one of these places to another and summarises some of them;
saving an event puts one message more into a buffer.  So the saved messages of a
topic stay in its books (`Engine.KeepsBooks`), as long as the events of its
reader go to the tables that are listed under it, and no others do.
-/

namespace ChangeCapture

variable {δ : Type} [Destination δ]

namespace Engine

variable {e e' : Engine (Ledger δ) MessageQueue} {topic : String} {ms : List Message}

/-- The messages that were committed to the queue of a topic. -/
def committed (e : Engine (Ledger δ) MessageQueue) (topic : String) : List Message :=
  ((e.sources.get? topic).map fun q => q.commits.flatten).getD []

/-- The messages of a topic that are held, in the buffers of its tables, or committed. -/
def books (e : Engine (Ledger δ) MessageQueue) (topic : String) : List Message :=
  e.held.getD topic [] ++ (e.registry.pending topic ++ e.committed topic)

omit [Destination δ] in
theorem committed_of_source {q : MessageQueue} (h : e.sources.get? topic = some q) :
    e.committed topic = q.commits.flatten := by
  simp [committed, h]

omit [Destination δ] in
theorem committed_congr (h : e'.sources.get? topic = e.sources.get? topic) :
    e'.committed topic = e.committed topic := by
  simp only [committed]
  rw [h]

/-! ## The flush of a table -/

omit [Destination δ] in
/-- The flush of a table takes its messages out of its buffer, or leaves them there. -/
theorem TableEffect.messagesOf {t : TableId} (h : TableEffect e e' t ms)
    (orderly : e'.registry.Orderly) :
    e.registry.messagesOf t = ms ++ e'.registry.messagesOf t := by
  cases h with
  | nothing _ same =>
    rw [same]
    rfl
  | kept before after _ =>
    rw [TableRegistry.messagesOf_of_window before.buffer before.window,
      TableRegistry.messagesOf_of_window after.buffer after.window]
    rfl
  | written before after _ =>
    rw [TableRegistry.messagesOf_of_window before.buffer before.window,
      after.messagesOf fun b w hb hw => (orderly.tidy _ b w hb hw).2, List.append_nil]

/-- The flush of a table of the topic takes messages out of the buffers of the topic. -/
theorem TableStep.pending_self {t : TableId} {cooldown : Option Nat} {now : Nat}
    {outcome : Outcome TableFlush} (h : TableStep e t cooldown now e' outcome)
    (orderly : e.registry.Orderly) (listed : t ∈ e.registry.tablesOf topic) :
    (e.registry.pending topic).Perm
      (FlushOutcomes.messages [outcome] ++ e'.registry.pending topic) := by
  have lists : e'.registry.tablesOf topic = e.registry.tablesOf topic := by
    simp only [TableRegistry.tablesOf]
    rw [h.frame.1]
  obtain ⟨rest, before, after⟩ := TableRegistry.pending_split lists (orderly.once topic) listed
    fun t' => h.get?_of_ne orderly.named
  have messages := (h.effect orderly.named).messagesOf (h.orderly orderly)
  rw [messages, List.append_assoc] at before
  exact before.trans (after.symm.append_left _)

/-- The flush of a table of another topic leaves the buffers of the topic alone. -/
theorem TableStep.pending_other {t : TableId} {cooldown : Option Nat} {now : Nat}
    {outcome : Outcome TableFlush} (h : TableStep e t cooldown now e' outcome)
    (orderly : e.registry.Orderly) (foreign : t ∉ e.registry.tablesOf topic) :
    e'.registry.pending topic = e.registry.pending topic := by
  refine TableRegistry.pending_congr ?_ foreign fun t' => h.get?_of_ne orderly.named
  simp only [TableRegistry.tablesOf]
  rw [h.frame.1]

/-! ## The tables of a topic -/

theorem orderly_flushTables (orderly : e.registry.Orderly) (cooldown : Option Nat) (now : Nat)
    (tables : List TableId) : (e.flushTables cooldown now tables).1.registry.Orderly :=
  flushTables_induct (P := fun e => e.registry.Orderly) tables cooldown now
    (fun _ step h => step.orderly h) e orderly

theorem pending_flushTables (orderly : e.registry.Orderly) (cooldown : Option Nat) (now : Nat)
    {tables : List TableId} (all : ∀ t ∈ tables, t ∈ e.registry.tablesOf topic) :
    (e.registry.pending topic).Perm
      (FlushOutcomes.messages (e.flushTables cooldown now tables).2.1 ++
        (e.flushTables cooldown now tables).1.registry.pending topic) := by
  induction tables generalizing e with
  | nil => exact .refl _
  | cons t rest ih =>
    have step := e.flushTable_step t cooldown now
    have first := step.pending_self orderly (all t List.mem_cons_self)
    have later := ih (step.orderly orderly) fun t' mem => by
      simp only [TableRegistry.tablesOf]
      rw [step.frame.1]
      exact all t' (List.mem_cons_of_mem t mem)
    rw [flushTables_cons, flushTables_outcomes_cons, messages_cons, List.append_assoc]
    exact first.trans (later.append_left _)

theorem pending_flushTables_other (orderly : e.registry.Orderly) (cooldown : Option Nat)
    (now : Nat) {tables : List TableId} (none : ∀ t ∈ tables, t ∉ e.registry.tablesOf topic) :
    (e.flushTables cooldown now tables).1.registry.pending topic = e.registry.pending topic := by
  refine (flushTables_induct (P := fun e' => e'.registry.Orderly ∧
    e'.registry.tablesOf topic = e.registry.tablesOf topic ∧
    e'.registry.pending topic = e.registry.pending topic) tables cooldown now ?_ e
    ⟨orderly, rfl, rfl⟩).2.2
  rintro e' e'' t outcome mem step ⟨orderly, lists, pending⟩
  refine ⟨step.orderly orderly, ?_, ?_⟩
  · simp only [TableRegistry.tablesOf] at lists ⊢
    rw [step.frame.1, lists]
  · rw [step.pending_other orderly (lists ▸ none t mem), pending]

/-! ## The end of a topic -/

/-- The saved messages `ms` of a topic are in its books. -/
structure KeepsBooks (e : Engine (Ledger δ) MessageQueue) (topic : String) (mode : AckMode)
    (q : MessageQueue) (ms : List Message) : Prop where
  /-- The tables are listed under their topics. -/
  orderly : e.registry.Orderly
  /-- The queue of the topic. -/
  source : e.sources.get? topic = some q
  /-- The queue gives the messages of the topic. -/
  gives : q.Gives topic mode ms
  /-- The messages are in the books. -/
  booked : Message.Booked ms (e.books topic)
  /-- Every commit is sorted by partition and then by offset. -/
  sorted : ∀ c ∈ q.commits, c.Pairwise Message.Before

namespace KeepsBooks

variable {mode : AckMode} {q : MessageQueue}

omit [Destination δ] in
/-- The books of a topic are about its tables, its queue and its held messages only. -/
theorem frame (h : e.KeepsBooks topic mode q ms) (orderly : e'.registry.Orderly)
    (source : e'.sources.get? topic = e.sources.get? topic)
    (held : e'.held.getD topic [] = e.held.getD topic [])
    (pending : (e'.registry.pending topic).Perm (e.registry.pending topic)) :
    e'.KeepsBooks topic mode q ms where
  orderly := orderly
  source := source.trans h.source
  gives := h.gives
  booked := by
    refine h.booked.perm ?_
    simp only [books]
    rw [held, committed_congr source]
    exact (pending.symm.append_right _).append_left _
  sorted := h.sorted

omit [Destination δ] in
/-- Messages that were taken out of the buffers are held with the others, or committed. -/
theorem settle {outcomes : List (Outcome TableFlush)} (orderly : e.registry.Orderly)
    (source : e.sources.get? topic = some q) (gives : q.Gives topic mode ms)
    (booked : Message.Booked ms (FlushOutcomes.messages outcomes ++ e.books topic))
    (sorted : ∀ c ∈ q.commits, c.Pairwise Message.Before) :
    ∃ q', (e.settle topic q outcomes).1.KeepsBooks topic mode q' ms := by
  have erased : (e.held.erase topic).getD topic [] = [] := by
    rw [SortedMap.getD_erase, if_pos rfl]
  have due : FlushOutcomes.messages outcomes ++ e.books topic =
      e.due topic outcomes ++ (e.registry.pending topic ++ q.commits.flatten) := by
    simp only [books, Engine.due]
    rw [committed_of_source source, List.append_assoc]
  rw [due] at booked
  have summarised := booked.summary gives.alike_taken
  by_cases none : e.due topic outcomes = []
  · rw [settle_of_nil none]
    refine ⟨q, orderly, source, gives, ?_, sorted⟩
    rw [none] at booked
    refine booked.perm (.of_eq ?_)
    show _ = (e.held.erase topic).getD topic [] ++ (e.registry.pending topic ++ e.committed topic)
    rw [erased, committed_of_source source]
  · cases complete : FlushOutcomes.areComplete outcomes with
    | true =>
      rw [settle_of_complete none complete]
      have source' : (e.sources.insert topic
          (q.commit (Message.summary (e.due topic outcomes)))).get? topic =
            some (q.commit (Message.summary (e.due topic outcomes))) :=
        SortedMap.get?_insert_self _ _ _
      refine ⟨_, orderly, source', gives.commit _, summarised.perm ?_, ?_⟩
      · simp only [books]
        rw [erased, committed_of_source source', List.nil_append]
        show (Message.summary (e.due topic outcomes) ++ _).Perm
          (e.registry.pending topic ++
            (q.commits ++ [Message.summary (e.due topic outcomes)]).flatten)
        rw [List.flatten_concat, ← List.append_assoc (e.registry.pending topic)]
        exact List.perm_append_comm
      · intro c mem
        rcases List.mem_append.1 mem with mem | mem
        · exact sorted c mem
        · rw [List.mem_singleton.1 mem]
          exact Message.sorted_summary _
    | false =>
      rw [settle_of_incomplete none complete]
      refine ⟨q, orderly, source, gives, summarised.perm (.of_eq ?_), sorted⟩
      show _ = ((e.held.erase topic).insert topic (Message.summary (e.due topic outcomes))).getD
        topic [] ++ (e.registry.pending topic ++ e.committed topic)
      rw [SortedMap.getD_insert, if_pos rfl, committed_of_source source]

/-! ## Flushes -/

theorem flushTopic_self (h : e.KeepsBooks topic mode q ms) {tables : List TableId}
    (lists : tables = e.registry.tablesOf topic) (cooldown : Option Nat) (now : Nat) :
    ∃ q', (e.flushTopic topic tables cooldown now).state.KeepsBooks topic mode q' ms := by
  obtain ⟨-, sources, held⟩ := e.flushTables_frame cooldown now tables
  rw [flushTopic_state h.source]
  refine settle (orderly_flushTables h.orderly cooldown now tables) ?_ h.gives ?_ h.sorted
  · rw [sources]
    exact h.source
  · have pending := pending_flushTables h.orderly cooldown now fun t (mem : t ∈ tables) =>
      lists ▸ mem
    refine h.booked.perm ?_
    simp only [books]
    rw [held, committed_congr (by rw [sources])]
    refine (((pending.append_right _).trans (.of_eq (List.append_assoc _ _ _))).append_left _).trans
      ?_
    exact List.perm_append_comm_assoc _ _ _

theorem flushTopic_other (h : e.KeepsBooks topic mode q ms) {other : String} (ne : other ≠ topic)
    {tables : List TableId} (lists : tables = e.registry.tablesOf other)
    (cooldown : Option Nat) (now : Nat) :
    (e.flushTopic other tables cooldown now).state.KeepsBooks topic mode q ms := by
  cases hs : e.sources.get? other with
  | none =>
    rw [flushTopic_of_stray hs]
    exact h
  | some source =>
    rw [flushTopic_state hs]
    obtain ⟨-, sources, held⟩ := e.flushTables_frame cooldown now tables
    obtain ⟨registry, -⟩ := settle_keeps (e.flushTables cooldown now tables).1 other source
      (e.flushTables cooldown now tables).2.1
    obtain ⟨sources', held'⟩ := settle_frame (e.flushTables cooldown now tables).1 ne.symm source
      (e.flushTables cooldown now tables).2.1
    refine h.frame ?_ ?_ ?_ (.of_eq ?_)
    · rw [registry]
      exact orderly_flushTables h.orderly cooldown now tables
    · rw [sources', sources]
    · rw [held', held]
    · rw [registry]
      refine pending_flushTables_other h.orderly cooldown now fun t mem => ?_
      exact (h.orderly.arranged topic).foreign other ne t (lists ▸ mem)

theorem flushTopics {topics : List (String × List TableId)} (h : e.KeepsBooks topic mode q ms)
    (lists : ∀ p ∈ topics, p.2 = e.registry.tablesOf p.1) (cooldown : Option Nat) (now : Nat) :
    ∃ q', (e.flushTopics cooldown now topics).1.KeepsBooks topic mode q' ms := by
  induction topics generalizing e q with
  | nil => exact ⟨q, h⟩
  | cons first rest ih =>
    obtain ⟨other, tables⟩ := first
    have firstLists := lists _ List.mem_cons_self
    have restLists : ∀ p ∈ rest, p.2 =
        (e.flushTopic other tables cooldown now).state.registry.tablesOf p.1 := by
      intro p mem
      simp only [TableRegistry.tablesOf]
      rw [flushTopic_topics]
      exact lists p (List.mem_cons_of_mem _ mem)
    rw [flushTopics_cons]
    by_cases same : other = topic
    · subst same
      obtain ⟨q', h'⟩ := h.flushTopic_self firstLists cooldown now
      exact ih h' restLists
    · exact ih (h.flushTopic_other same firstLists cooldown now) restLists

/-- A flush keeps the books. -/
theorem flush (h : e.KeepsBooks topic mode q ms) (order : FlushOrder) (now : Nat) :
    ∃ q', (e.flush order now).state.KeepsBooks topic mode q' ms := by
  simp only [Engine.flush]
  cases selected : e.selection order with
  | error f => exact ⟨q, h⟩
  | ok topics => exact h.flushTopics (selection_lists selected) order.cooldown now

/-! ## The intake of a message -/

omit [Destination δ] in
/-- A message that is read keeps the books, before its event is taken in. -/
theorem advance (h : e.KeepsBooks topic mode q ms) {read : String} {source source' : MessageQueue}
    {m : Message} (there : e.sources.get? read = some source)
    (reads : source.read = (.message m, source')) :
    ∃ q', (Run.advanced e read source').KeepsBooks topic mode q' ms ∧
      (read = topic → q'.Gives topic mode (ms ++ [m])) := by
  by_cases same : read = topic
  · subst same
    obtain rfl := Option.some.inj (there.symm.trans h.source)
    obtain ⟨first, rest, -, -, hrest⟩ := MessageQueue.read_message reads
    have taken := h.gives.take reads
    have source : (Run.advanced e read source').sources.get? read = some source' :=
      SortedMap.get?_insert_self _ _ _
    refine ⟨source', ⟨h.orderly, source, taken.sublist (List.sublist_append_left _ _), ?_, ?_⟩,
      fun _ => taken⟩
    · refine h.booked.perm (.of_eq ?_)
      simp only [books]
      rw [committed_of_source source, committed_of_source h.source, hrest]
      rfl
    · rw [hrest]
      exact h.sorted
  · refine ⟨q, h.frame h.orderly ?_ rfl (.refl _), fun h => absurd h same⟩
    exact SortedMap.get?_insert_of_ne _ _ fun h => same h.symm

omit [Destination δ] in
/-- An event that cannot be saved keeps the books. -/
theorem refuse (h : e.KeepsBooks topic mode q ms) (s : TopicSettings) (event : RowEvent) :
    ({ e with registry :=
        e.registry.putWindow event.tableId s.topic (event.opened s e.registry) } :
      Engine (Ledger δ) MessageQueue).KeepsBooks topic mode q ms := by
  have arranged := h.orderly.arranged topic
  refine h.frame (h.orderly.putWindow s.topic (RowEvent.tableId_opened arranged)
    (RowEvent.tidy_opened arranged)) rfl rfl ?_
  by_cases mine : (e.registry.getOrNew event.tableId s.topic).topic = topic
  · obtain ⟨rest, before, after⟩ :=
      h.orderly.pending_putWindow_self event.tableId s.topic (event.opened s e.registry)
    rw [RowEvent.lastMessages_opened h.orderly] at after
    rw [mine] at before after
    exact after.trans before.symm
  · exact .of_eq (h.orderly.pending_putWindow_of_ne _ fun same => mine same.symm)

omit [Destination δ] in
/-- An event that is saved keeps the books, if it is saved into a table of the topic just when its
message is of the topic. -/
theorem store (h : e.KeepsBooks topic mode q ms) {s : TopicSettings} {event : RowEvent}
    {m : Message} (key : String)
    (fits : (e.registry.getOrNew event.tableId s.topic).topic = topic ↔ s.topic = topic)
    (gives : s.topic = topic → q.Gives topic mode (ms ++ [m])) :
    ({ e with registry :=
        e.registry.putWindow event.tableId s.topic (event.stored s m e.registry key) } :
      Engine (Ledger δ) MessageQueue).KeepsBooks topic mode q
        (if s.topic = topic then ms ++ [m] else ms) := by
  have arranged := h.orderly.arranged topic
  have tidy : (event.stored s m e.registry key).Tidy := RowEvent.tidy_stored arranged
  have orderly := h.orderly.putWindow s.topic (RowEvent.tableId_stored arranged) tidy
  split
  · rename_i same
    have mine := fits.2 same
    obtain ⟨rest, before, after⟩ :=
      h.orderly.pending_putWindow_self event.tableId s.topic (event.stored s m e.registry key)
    obtain ⟨dropped, kept, split, put, replaced⟩ :=
      RowEvent.lastMessages_stored (s := s) (e := event) h.orderly m key
    rw [mine] at before after
    have before := before.trans ((split.append_right rest).trans (.of_eq (List.append_assoc ..)))
    have after := after.trans (put.append_right rest)
    refine ⟨orderly, h.source, gives same, ?_, h.sorted⟩
    have booked : Message.Booked ms
        (dropped ++ (kept ++ rest ++ (e.held.getD topic [] ++ e.committed topic))) := by
      refine h.booked.perm ((List.perm_append_comm_assoc _ _ _).trans ?_)
      refine (before.append_right _).trans (.of_eq ?_)
      rw [List.append_assoc]
    have last : ∀ x ∈ ms, x.Precedes m := fun x mem =>
      (gives same).ordered.precedes mem (List.mem_singleton_self m)
    refine (booked.record (gives same).alike_taken last replaced).perm ?_
    refine List.Perm.trans ?_ (List.perm_append_comm_assoc _ _ _)
    exact after.symm.append_right _
  · rename_i other
    refine h.frame orderly rfl rfl (.of_eq ?_)
    exact h.orderly.pending_putWindow_of_ne _ fun mine => other (fits.1 mine.symm)

omit [Destination δ] in
/-- The intake of a message keeps the books of a topic, if the event is saved into one of its
tables just when the message is its own. -/
theorem ingest (h : e.KeepsBooks topic mode q ms) {s : TopicSettings} {written : Mode}
    {now : Instant} {m : Message} {more : List Saved}
    (step : Run.IngestStep e s written now m e' more)
    (fits : ∀ event, RowEvent.ofMessage s written now m = .ok (some event) → more ≠ [] →
      ((e.registry.getOrNew event.tableId s.topic).topic = topic ↔ s.topic = topic))
    (gives : s.topic = topic → q.Gives topic mode (ms ++ [m])) :
    e'.KeepsBooks topic mode q (ms ++ (Saved.ofTopic topic more).map Saved.message) := by
  cases step with
  | skipped => rwa [Saved.ofTopic, List.filter_nil, List.map_nil, List.append_nil]
  | @refused event =>
    rw [Saved.ofTopic, List.filter_nil, List.map_nil, List.append_nil]
    exact h.refuse s event
  | @saved event shaped key =>
    have kept := h.store key (fits event shaped (List.cons_ne_nil _ _)) gives
    split at kept
    · rename_i same
      rwa [Saved.ofTopic_singleton_self same]
    · rename_i other
      rwa [Saved.ofTopic_singleton_of_ne other, List.map_nil, List.append_nil]

end KeepsBooks

end Engine

/-! ## Runs -/

namespace Run

open Engine (KeepsBooks)

variable {topic : String} {mode : AckMode}

/-- The saved messages of a topic, in order. -/
def messagesOf (r : Run δ) (topic : String) : List Message :=
  (Saved.ofTopic topic r.saved).map Saved.message

/-- The saved messages of a topic are in its books. -/
def KeepsBooks (r : Run δ) (topic : String) (mode : AckMode) : Prop :=
  ∃ q, r.engine.KeepsBooks topic mode q (r.messagesOf topic)

omit [Destination δ] in
theorem keepsBooks_start {sources : SortedMap String MessageQueue}
    (feed : sources.get? topic = some (.new topic mode)) (thresholds : Thresholds)
    (destination : δ) (retry : RetryPolicy) :
    (start thresholds destination sources retry).KeepsBooks topic mode := by
  refine ⟨_, .new thresholds, feed, .new topic mode, ?_, nofun⟩
  have none : (start thresholds destination sources retry).engine.books topic = [] := by
    simp only [Engine.books]
    rw [Engine.committed_of_source feed]
    rfl
  rw [none]
  exact .nil

omit [Destination δ] in
theorem KeepsBooks.push {r : Run δ} (h : r.KeepsBooks topic mode) (t : String) (partition : Int)
    (key value : Option ByteArray) : (r.push t partition key value).KeepsBooks topic mode := by
  obtain ⟨q, h⟩ := h
  by_cases same : topic = t
  · subst same
    have source : (r.push topic partition key value).engine.sources.get? topic =
        some (q.push partition key value) := by
      show (r.engine.sources.modify topic _).get? topic = _
      rw [SortedMap.get?_modify, if_pos rfl, h.source]
      rfl
    refine ⟨_, h.orderly, source, h.gives.push partition key value, ?_, h.sorted⟩
    refine h.booked.perm (.of_eq ?_)
    simp only [Engine.books]
    rw [Engine.committed_of_source source, Engine.committed_of_source h.source]
    rfl
  · refine ⟨q, h.frame h.orderly ?_ rfl (.refl _)⟩
    show (r.engine.sources.modify t _).get? topic = _
    rw [SortedMap.get?_modify, if_neg same]

omit [Destination δ] in
/-- A reader keeps the books of a topic, if it saves events into the tables of the topic just when
it is the reader of the topic. -/
theorem KeepsBooks.process {r : Run δ} (h : r.KeepsBooks topic mode) {s : TopicSettings}
    {written : Mode} {now : Instant}
    (fits : ∀ m event, r.next? s.topic = some m →
      RowEvent.ofMessage s written now m = .ok (some event) →
      (r.process s written now).saved ≠ r.saved →
      ((r.engine.registry.getOrNew event.tableId s.topic).topic = topic ↔ s.topic = topic)) :
    (r.process s written now).KeepsBooks topic mode := by
  cases hm : r.next? s.topic with
  | none => rwa [process_of_none hm]
  | some m =>
    obtain ⟨q, h⟩ := h
    obtain ⟨source, source', more, hsource, read, step, saved⟩ := process_of_message hm written now
    have messages : (r.process s written now).messagesOf topic =
        r.messagesOf topic ++ (Saved.ofTopic topic more).map Saved.message := by
      simp only [messagesOf]
      rw [saved, Saved.ofTopic_append, List.map_append]
    have fits : ∀ event, RowEvent.ofMessage s written now m = .ok (some event) → more ≠ [] →
        ((r.engine.registry.getOrNew event.tableId s.topic).topic = topic ↔ s.topic = topic) := by
      intro event shaped some
      refine fits m event hm shaped ?_
      rw [saved]
      simpa using some
    obtain ⟨q', advanced, gives⟩ := h.advance hsource read
    refine ⟨q', ?_⟩
    rw [messages]
    exact advanced.ingest step fits gives

theorem KeepsBooks.flush {r : Run δ} (h : r.KeepsBooks topic mode) (order : FlushOrder)
    (now : Nat) : (r.flush order now).KeepsBooks topic mode := by
  obtain ⟨q, h⟩ := h
  exact h.flush order now

end Run

end ChangeCapture
