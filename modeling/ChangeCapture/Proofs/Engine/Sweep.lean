import ChangeCapture.Proofs.Engine.Commits

/-!
# Sweeps beside a reader

A sweep reads the list of tables before it waits for the reader of a topic.
What the reader takes in meanwhile may bring up a table that the sweep does not
know.  The sweep then commits past a row of that table if and only if a row of
a listed table came after it in its partition (`Run.sweep_safe_iff`).
-/

namespace ChangeCapture

variable {δ : Type} [Destination δ] {topic : String} {own : TableId → Prop}

/-! ## What an intake keeps -/

namespace Run

/-- The second run goes on from the first one without a flush. -/
structure Extends (r r' : Run δ) : Prop where
  /-- The destination is the same. -/
  destination : r'.engine.destination = r.engine.destination
  /-- The held messages are the same. -/
  held : r'.engine.held = r.engine.held
  /-- What is saved beside was saved with as many windows entered as before. -/
  saved : ∃ more, r'.saved = r.saved ++ more ∧ ∀ s ∈ more, s.entered = r.accepted.length

omit [Destination δ] in
theorem Extends.refl (r : Run δ) : r.Extends r :=
  ⟨rfl, rfl, [], (List.append_nil _).symm, fun _ mem => absurd mem List.not_mem_nil⟩

omit [Destination δ] in
theorem Extends.trans {r r' r'' : Run δ} (h : r.Extends r') (h' : r'.Extends r'') :
    r.Extends r'' := by
  obtain ⟨more, saved, entered⟩ := h.saved
  obtain ⟨more', saved', entered'⟩ := h'.saved
  refine ⟨h'.destination.trans h.destination, h'.held.trans h.held, more ++ more', ?_, ?_⟩
  · rw [saved', saved, List.append_assoc]
  · intro s mem
    rcases List.mem_append.1 mem with mem | mem
    · exact entered s mem
    · rw [entered' s mem]
      exact congrArg (fun l => l.accepted.length) h.destination

omit [Destination δ] in
theorem IngestStep.extends {e e' : Engine (Ledger δ) MessageQueue} {s : TopicSettings}
    {mode : Mode} {now : Instant} {m : Message} {more : List Saved}
    (h : IngestStep e s mode now m e' more) :
    e'.destination = e.destination ∧ e'.held = e.held ∧
      ∀ s ∈ more, s.entered = e.destination.accepted.length := by
  cases h with
  | skipped => exact ⟨rfl, rfl, fun _ mem => absurd mem List.not_mem_nil⟩
  | refused _ => exact ⟨rfl, rfl, fun _ mem => absurd mem List.not_mem_nil⟩
  | saved _ _ =>
    refine ⟨rfl, rfl, fun s mem => ?_⟩
    rw [List.mem_singleton.1 mem]

omit [Destination δ] in
theorem Intake.extends {r r' : Run δ} (h : Intake topic own r r') : r.Extends r' := by
  cases h with
  | push t partition key value =>
    exact ⟨rfl, rfl, [], (List.append_nil _).symm, fun _ mem => absurd mem List.not_mem_nil⟩
  | process s mode now feeds =>
    cases hm : r.next? s.topic with
    | none =>
      rw [process_of_none hm]
      exact .refl r
    | some m =>
      obtain ⟨q, q', more, -, -, step, saved⟩ := process_of_message hm mode now
      obtain ⟨destination, held, entered⟩ := step.extends
      exact ⟨destination, held, more, saved, entered⟩

omit [Destination δ] in
theorem Takes.extends {r r' : Run δ} (h : Takes topic own r r') : r.Extends r' := by
  induction h with
  | refl => exact .refl r
  | tail _ step ih => exact ih.trans step.extends

omit [Destination δ] in
theorem Takes.inOrder {r r' : Run δ} (h : Takes topic own r r') (inOrder : r.InOrder topic own) :
    r'.InOrder topic own := by
  induction h with
  | refl => exact inOrder
  | tail _ step ih =>
    cases step with
    | push t partition key value => exact ih.push t partition key value
    | process s mode now feeds => exact ih.process feeds

/-! ## Sweeps -/

/-- The tables that a sweep reads for a topic. -/
def sweepList (r : Run δ) (cooldown : Nat) (topic : String) (tables : List TableId) : Prop :=
  ∃ topics, r.engine.selection (.sweep cooldown) = .ok topics ∧ (topic, tables) ∈ topics

/-- A sweep of a topic, once its reader waits, with the tables that were read before. -/
def sweep (r : Run δ) (topic : String) (tables : List TableId) (cooldown now : Nat) : Run δ :=
  { r with engine := (r.engine.flushTopic topic tables (some cooldown) now).state }

/-- What the tables end with in a sweep. -/
def sweepOutcomes (r : Run δ) (tables : List TableId) (cooldown now : Nat) :
    List (Outcome TableFlush) :=
  (r.engine.flushTables (some cooldown) now tables).2.1

/-- All rows up to a committed message were written. -/
def CommitsAreSafe (r : Run δ) (topic : String) : Prop :=
  ∀ q, r.queue? topic = some q → ∀ c ∈ q.commits.flatten, ∀ s ∈ Saved.ofTopic topic r.saved,
    s.message.partition = c.partition → s.message.offset ≤ c.offset →
      s.IsWritten r.saved r.accepted

/-- A row of a table that is not listed stands before a row of a listed one in its partition. -/
def Overtaken (topic : String) (tables : List TableId) (saved : List Saved) : Prop :=
  ∃ s ∈ Saved.ofTopic topic saved, ∃ s' ∈ Saved.ofTopic topic saved,
    s.event.tableId ∉ tables ∧ s'.event.tableId ∈ tables ∧
      s.message.partition = s'.message.partition ∧ s.message.offset < s'.message.offset

instance (topic : String) (tables : List TableId) (saved : List Saved) :
    Decidable (Overtaken topic tables saved) :=
  inferInstanceAs (Decidable (∃ s ∈ Saved.ofTopic topic saved, ∃ s' ∈ Saved.ofTopic topic saved,
    s.event.tableId ∉ tables ∧ s'.event.tableId ∈ tables ∧
      s.message.partition = s'.message.partition ∧ s.message.offset < s'.message.offset))

open Engine (Accounts)

variable {r r' : Run δ} {q q' : MessageQueue} {tables : List TableId}

omit [Destination δ] in
theorem mem_sweepList {cooldown : Nat} (h : r.sweepList cooldown topic tables) :
    tables = r.engine.registry.tablesOf topic := by
  obtain ⟨topics, selected, mem⟩ := h
  exact Engine.selection_lists selected _ mem

omit [Destination δ] in
/-- A row of a table that is not listed was saved after the list was read. -/
theorem saved_later (h : Accounts topic own r.engine q r.saved [])
    (lists : tables = r.engine.registry.tablesOf topic) {s : Saved}
    (unlisted : s.event.tableId ∉ tables) : s ∉ Saved.ofTopic topic r.saved := by
  intro mem
  refine unlisted ?_
  rw [lists]
  exact (h.arranged.listed _).2 ⟨(h.owned s mem).1, (h.owned s mem).2.1⟩

omit [Destination δ] in
theorem Extends.mem_ofTopic (h : r.Extends r') {s : Saved}
    (mem : s ∈ Saved.ofTopic topic r'.saved) (new : s ∉ Saved.ofTopic topic r.saved) :
    s.entered = r'.accepted.length ∧
      ∀ old ∈ Saved.ofTopic topic r.saved, ∀ {q : MessageQueue},
        q.Ordered ((Saved.ofTopic topic r'.saved).map Saved.message) →
          old.message.Precedes s.message := by
  obtain ⟨more, saved, entered⟩ := h.saved
  have split : Saved.ofTopic topic r'.saved =
      Saved.ofTopic topic r.saved ++ Saved.ofTopic topic more := by
    rw [saved, Saved.ofTopic_append]
  rw [split] at mem
  have late := (List.mem_append.1 mem).resolve_left new
  refine ⟨?_, ?_⟩
  · rw [entered s (Saved.mem_ofTopic.1 late).1]
    exact congrArg (fun l => l.accepted.length) h.destination.symm
  · intro old hold q ordered
    rw [split, List.map_append] at ordered
    exact ordered.precedes (List.mem_map_of_mem hold) (List.mem_map_of_mem late)

/-- A row of a table that is not listed stays where it is in the sweep. -/
theorem not_gone_of_unlisted (h : Accounts topic own r.engine q r.saved [])
    (h' : Accounts topic own r'.engine q' r'.saved []) (goes : r.Extends r')
    (lists : tables = r.engine.registry.tablesOf topic) (cooldown now : Nat) {s : Saved}
    (mem : s ∈ Saved.ofTopic topic r'.saved) (unlisted : s.event.tableId ∉ tables) :
    ¬ s.IsGone
      (r'.engine.flushTables (some cooldown) now tables).1.destination.accepted := by
  rintro ⟨w, found, table⟩
  obtain ⟨more, entered, listed⟩ :=
    Engine.entered_flushTables h'.arranged (some cooldown) now tables
  have late := (goes.mem_ofTopic mem (saved_later h lists unlisted)).1
  rw [entered, late] at found
  rw [show (r'.engine.destination.accepted ++ more).drop r'.accepted.length = more from
    List.drop_left] at found
  exact unlisted (table ▸ listed w found)

omit [Destination δ] in
/-- What a complete sweep commits. -/
theorem queue_of_complete {e : Engine (Ledger δ) MessageQueue}
    {outcomes : List (Outcome TableFlush)} (source : e.sources.get? topic = some q)
    (complete : FlushOutcomes.areComplete outcomes) :
    ∃ q', (e.settle topic q outcomes).1.sources.get? topic = some q' ∧
      q'.commits.flatten = q.commits.flatten ++ Message.summary (e.due topic outcomes) := by
  by_cases none : e.due topic outcomes = []
  · rw [Engine.settle_of_nil none, none]
    exact ⟨q, source, (List.append_nil _).symm⟩
  · rw [Engine.settle_of_complete none complete]
    refine ⟨_, SortedMap.get?_insert_self _ _ _, ?_⟩
    show (q.commits ++ [_]).flatten = _
    simp

omit [Destination δ] in
/-- What a sweep that is not complete commits. -/
theorem queue_of_incomplete {e : Engine (Ledger δ) MessageQueue}
    {outcomes : List (Outcome TableFlush)} (source : e.sources.get? topic = some q)
    (incomplete : FlushOutcomes.areComplete outcomes = false) :
    (e.settle topic q outcomes).1.sources.get? topic = some q := by
  by_cases none : e.due topic outcomes = []
  · rw [Engine.settle_of_nil none]
    exact source
  · rw [Engine.settle_of_incomplete none incomplete]
    exact source

/-- What the tables were up to when a sweep ends: the accounts with the messages of its tables in
hand. -/
theorem flushed_accounts (h : Accounts topic own r.engine q r.saved [])
    (h' : Accounts topic own r'.engine q' r'.saved [])
    (lists : tables = r.engine.registry.tablesOf topic) (cooldown now : Nat) :
    Accounts topic own (r'.engine.flushTables (some cooldown) now tables).1 q' r'.saved
      (FlushOutcomes.messages (r'.sweepOutcomes tables cooldown now)) := by
  have all : ∀ t ∈ tables, own t := fun t mem => ((h.arranged.listed t).1 (lists ▸ mem)).1
  have flushed := h'.flushTables (some cooldown) now all
  rwa [List.nil_append] at flushed

/-- A complete sweep that was overtaken commits past a row that was not written. -/
theorem not_safe_of_overtaken (h : Accounts topic own r.engine q r.saved [])
    (h' : Accounts topic own r'.engine q' r'.saved []) (goes : r.Extends r')
    (lists : tables = r.engine.registry.tablesOf topic) {cooldown now : Nat}
    (complete : FlushOutcomes.areComplete (r'.sweepOutcomes tables cooldown now))
    (overtaken : Overtaken topic tables r'.saved) :
    ¬ (r'.sweep topic tables cooldown now).CommitsAreSafe topic := by
  intro safe
  obtain ⟨s, mem, s', mem', unlisted, listed, partition, before⟩ := overtaken
  have flushed := flushed_accounts h h' lists cooldown now
  have vacant := Engine.vacant_of_complete h'.arranged.named complete _ listed
  obtain ⟨c, hc, same, le⟩ : s'.message.Covered
      (q'.commits.flatten ++ Message.summary
        ((r'.engine.flushTables (some cooldown) now tables).1.due topic
          (r'.sweepOutcomes tables cooldown now))) := by
    rcases flushed.placed s' mem' with ⟨b, w, holds, -⟩ | ⟨-, m, hm, part, le⟩
    · exact absurd holds vacant.not_holds
    · rcases List.mem_append.1 hm with hm | hm
      · exact (Message.Covered.summary ⟨m, hm, part, le⟩).append_right _
      · exact ⟨m, List.mem_append_left _ hm, part, le⟩
  obtain ⟨q'', source, commits⟩ := queue_of_complete flushed.source complete
  have written := safe q'' (by
    show (r'.engine.flushTopic topic tables (some cooldown) now).state.sources.get? topic = _
    rw [Engine.flushTopic_state h'.source]
    exact source) c (commits ▸ hc) s mem (partition.trans same.symm) (by omega)
  refine not_gone_of_unlisted h h' goes lists cooldown now mem unlisted ?_
  have gone := written.isGone
  have keeps := Engine.settle_keeps (r'.engine.flushTables (some cooldown) now tables).1 topic q'
    (r'.sweepOutcomes tables cooldown now)
  rw [← keeps.2]
  unfold accepted sweep at gone
  rwa [Engine.flushTopic_state h'.source] at gone

theorem GathersRows.sweep (h : r.GathersRows) (topic : String) (tables : List TableId)
    (cooldown now : Nat) : (r.sweep topic tables cooldown now).GathersRows := by
  refine Engine.flushTopic_induct
    (P := fun e : Engine (Ledger δ) MessageQueue => e.GathersRows r.saved) now
    (fun step kept => kept.tableStep step) (fun {e topic source} _ outcomes kept => ?_)
    topic tables (some cooldown) r.engine h
  obtain ⟨registry, destination⟩ := Engine.settle_keeps e topic source outcomes
  exact kept.frame registry (congrArg Ledger.accepted destination)

/-- A row of a table that is not listed is overtaken if a complete sweep commits past it. -/
theorem overtaken_of_due (h : Accounts topic own r.engine q r.saved [])
    (h' : Accounts topic own r'.engine q' r'.saved []) (goes : r.Extends r')
    (lists : tables = r.engine.registry.tablesOf topic) {cooldown now : Nat} {c : Message}
    (due : c ∈ (r'.engine.flushTables (some cooldown) now tables).1.due topic
      (r'.sweepOutcomes tables cooldown now))
    {s : Saved} (mem : s ∈ Saved.ofTopic topic r'.saved) (unlisted : s.event.tableId ∉ tables)
    (partition : s.message.partition = c.partition) (le : s.message.offset ≤ c.offset) :
    Overtaken topic tables r'.saved := by
  have late := (goes.mem_ofTopic mem (saved_later h lists unlisted)).2
  rcases List.mem_append.1 due with written | held
  · obtain ⟨t, listed, buffered⟩ := Engine.buffers_of_mem_flushTables h'.arranged written
    have o : own t := ((h.arranged.listed t).1 (lists ▸ listed)).1
    obtain ⟨s', mem', rfl, rfl⟩ := h'.buffered t c o buffered
    refine ⟨s, mem, s', mem', unlisted, listed, partition, ?_⟩
    rcases Int.lt_or_eq_of_le le with lt | same
    · exact lt
    · rw [h'.eq_of_position mem mem' partition same] at unlisted
      exact absurd listed unlisted
  · rw [(Engine.flushTables_frame _ _ _ _).2.2, goes.held] at held
    obtain ⟨old, hold, rfl⟩ := h.collected c
      (List.mem_append_left _ (List.mem_append_right _ held))
    have := late old hold h'.ordered partition.symm
    omega

/-- A sweep that is not complete, or that was not overtaken, commits safely. -/
theorem safe_of_not_overtaken (h : Accounts topic own r.engine q r.saved [])
    (h' : Accounts topic own r'.engine q' r'.saved []) (gathers : r'.GathersRows)
    (goes : r.Extends r') (lists : tables = r.engine.registry.tablesOf topic) {cooldown now : Nat}
    (not : ¬ (FlushOutcomes.areComplete (r'.sweepOutcomes tables cooldown now) ∧
      Overtaken topic tables r'.saved)) :
    (r'.sweep topic tables cooldown now).CommitsAreSafe topic := by
  have flushed := flushed_accounts h h' lists cooldown now
  have keeps := Engine.settle_keeps (r'.engine.flushTables (some cooldown) now tables).1 topic q'
    (r'.sweepOutcomes tables cooldown now)
  intro q'' source c hc s mem partition le
  refine (gathers.sweep topic tables cooldown now).isWritten (Saved.mem_ofTopic.1 mem).1 ?_
  unfold queue? sweep at source
  unfold sweep
  rw [Engine.flushTopic_state h'.source] at source ⊢
  unfold sweepOutcomes at keeps
  rw [keeps.2]
  change (Engine.settle _ topic q' (r'.sweepOutcomes tables cooldown now)).1.sources.get? topic = _
    at source
  cases complete : FlushOutcomes.areComplete (r'.sweepOutcomes tables cooldown now) with
  | false =>
    obtain rfl := Option.some.inj
      ((queue_of_incomplete flushed.source complete).symm.trans source)
    exact flushed.safe c hc s mem partition le
  | true =>
    obtain ⟨q₂, source', commits⟩ := queue_of_complete flushed.source complete
    obtain rfl := Option.some.inj (source'.symm.trans source)
    rw [commits] at hc
    rcases List.mem_append.1 hc with hc | hc
    · exact flushed.safe c hc s mem partition le
    · rcases flushed.placed s mem with ⟨b, w, holds, -⟩ | ⟨gone, -⟩
      · have unlisted : s.event.tableId ∉ tables := fun listed =>
          (Engine.vacant_of_complete h'.arranged.named complete _ listed).not_holds holds
        exact absurd ⟨complete, overtaken_of_due h h' goes lists (Message.mem_of_mem_summary hc)
          mem unlisted partition le⟩ not
      · exact gone

/-- A sweep whose list of tables was read before other messages were taken in commits safely,
unless no table failed or was left alone and a row of a table that came up meanwhile was overtaken
by a row of a listed table. -/
theorem sweep_safe_iff {thresholds : Thresholds} {destination : δ}
    {sources : SortedMap String MessageQueue} {retry : RetryPolicy} {mode : AckMode}
    (feed : sources.get? topic = some (.new topic mode))
    (path : Reaches topic own (start thresholds destination sources retry) r) {cooldown : Nat}
    (list : r.sweepList cooldown topic tables) (takes : Takes topic own r r') (now : Nat) :
    (r'.sweep topic tables cooldown now).CommitsAreSafe topic ↔
      ¬ (FlushOutcomes.areComplete (r'.sweepOutcomes tables cooldown now) ∧
        Overtaken topic tables r'.saved) := by
  have inOrder := (inOrder_start own feed thresholds destination retry).reaches path
  obtain ⟨q, h⟩ := inOrder
  obtain ⟨q', h'⟩ := takes.inOrder ⟨q, h⟩
  have gathers :=
    ((gathersRows_start thresholds destination sources retry).reaches path).takes takes
  have lists := mem_sweepList list
  constructor
  · rintro safe ⟨complete, overtaken⟩
    exact not_safe_of_overtaken h h' takes.extends lists complete overtaken safe
  · exact safe_of_not_overtaken h h' gathers takes.extends lists

/-! ## A sweep that loses a row -/

/-- The list of tables is read after one table was fed. -/
def sampleListed : Run TrialStore := (sampleStart 1).sampleFeed "orders" "1"

/-- Meanwhile a new table is fed, and then the listed one. -/
def sampleLate : Run TrialStore := (sampleListed.sampleFeed "items" "2").sampleFeed "orders" "3"

/-- The table that the sweep knows. -/
def sampleTables : List TableId := [⟨"public", "orders"⟩]

theorem takes_sampleLate : Takes "orders" (fun _ => True) sampleListed sampleLate :=
  (takes_sampleFeed sampleListed "items" "2").trans (takes_sampleFeed _ "orders" "3")

theorem reaches_sampleListed : Reaches "orders" (fun _ => True) (sampleStart 1) sampleListed :=
  (takes_sampleFeed (sampleStart 1) "orders" "1").reaches

theorem sampleListed_tables : sampleListed.sweepList 0 "orders" sampleTables :=
  ⟨_, rfl, by decide +kernel⟩

theorem sampleLate_overtaken :
    FlushOutcomes.areComplete (sampleLate.sweepOutcomes sampleTables 0 0) ∧
      Overtaken "orders" sampleTables sampleLate.saved := by
  decide +kernel

theorem sweep_safe_iff_sampleLate :
    sampleListed.sweepList 0 "orders" sampleTables ∧
      ((sampleLate.sweep "orders" sampleTables 0 0).CommitsAreSafe "orders" ↔
        ¬ (FlushOutcomes.areComplete (sampleLate.sweepOutcomes sampleTables 0 0) ∧
          Overtaken "orders" sampleTables sampleLate.saved)) :=
  ⟨sampleListed_tables, sweep_safe_iff (SortedMap.get?_insert_self _ _ _) reaches_sampleListed
    sampleListed_tables takes_sampleLate 0⟩

/-- A sweep whose writes all succeed may commit past a row that is only buffered. -/
theorem sweep_commits_past_buffered_row :
    Reaches "orders" (fun _ => True) (sampleStart 1) sampleListed ∧
      sampleListed.sweepList 0 "orders" sampleTables ∧
      Takes "orders" (fun _ => True) sampleListed sampleLate ∧
      FlushOutcomes.areComplete (sampleLate.sweepOutcomes sampleTables 0 0) ∧
      ¬ (sampleLate.sweep "orders" sampleTables 0 0).CommitsAreSafe "orders" := by
  have inOrder := (inOrder_start (fun _ => True) (SortedMap.get?_insert_self _ _ _)
    ⟨10, 100⟩ _ _).reaches reaches_sampleListed
  obtain ⟨q, h⟩ := inOrder
  obtain ⟨q', h'⟩ := takes_sampleLate.inOrder ⟨q, h⟩
  refine ⟨reaches_sampleListed, sampleListed_tables, takes_sampleLate, sampleLate_overtaken.1, ?_⟩
  exact not_safe_of_overtaken h h' takes_sampleLate.extends (mem_sweepList sampleListed_tables)
    sampleLate_overtaken.1 sampleLate_overtaken.2

end Run

end ChangeCapture
