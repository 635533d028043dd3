import ChangeCapture.Proofs.Engine.Transcript

/-!
# What a flush reports

The faults of the tables of a topic are gathered, and then those of all topics, where a
fault that is alone is not wrapped.  However they are nested, the kinds of what is reported
are those of the last faults of the tables that failed, and one for each topic that has
tables and no source (`Engine.reports_flush`).  Such a topic does not keep the others from
being flushed.
-/

namespace ChangeCapture

open FlushOutcomes (faults joined kinds)

theorem FlushOutcomes.faults_joined_cons (fs : List Fault) (outcomes : List (Outcome Unit)) :
    faults (joined fs :: outcomes) = [] ↔ fs = [] ∧ faults outcomes = [] := by
  cases fs with
  | nil => simp [faults, joined]
  | cons f rest => simp [faults, joined]

theorem FlushOutcomes.faults_append {α : Type} (outcomes more : List (Outcome α)) :
    faults (outcomes ++ more) = faults outcomes ++ faults more :=
  List.filterMap_append

namespace Engine

variable {δ κ : Type} [Destination δ] [Source κ] {e : Engine δ κ}

/-! ## Topics one after the other -/

/-- A topic whose source takes every commit fails with the faults of its tables. -/
theorem flushTopic_outcome {topic : String} {source : κ} (fed : e.sources.get? topic = some source)
    (accepts : Source.Accepts source) (tables : List TableId) (cooldown : Option Nat) (now : Nat) :
    (e.flushTopic topic tables cooldown now).outcome =
      joined (faults (e.flushTables cooldown now tables).2.1) := by
  have sources := (e.flushTables_frame cooldown now tables).2.1
  have ends := settle_ends (e := (e.flushTables cooldown now tables).1) (sources ▸ fed)
    (e.flushTables cooldown now tables).2.1
  simp only [flushTopic, fed]
  rw [← TopicEnd.outcome_of accepts]
  exact (congrArg TopicEnd.outcome ends).symm

/-- The topics without a source, among those given. -/
def strays (e : Engine δ κ) (topics : List (String × List TableId)) : List String :=
  (topics.map Prod.fst).filter fun topic => !e.sources.contains topic

/-- The faults of topics are those of their tables, and one for each topic without a source. -/
theorem faults_flushTopics (topics : List (String × List TableId))
    (once : (topics.map Prod.fst).Nodup)
    (accepts : ∀ x ∈ topics, ∀ source, e.sources.get? x.1 = some source → Source.Accepts source)
    (cooldown : Option Nat) (now : Nat) :
    (faults (e.flushTopics cooldown now topics).2.1 = [] ↔
        faults (e.flushTables cooldown now (e.taken topics)).2.1 = [] ∧ e.strays topics = []) ∧
      ((e.flushTopics cooldown now topics).2.1.flatMap kinds).Perm
        ((faults (e.flushTables cooldown now (e.taken topics)).2.1).flatMap Fault.kinds ++
          (e.strays topics).map fun _ => .unknownTopic) := by
  induction topics generalizing e with
  | nil => exact ⟨by simp [flushTopics, flushTables, taken, strays, faults], .refl _⟩
  | cons x rest ih =>
    obtain ⟨topic, tables⟩ := x
    obtain ⟨fresh, once⟩ := List.nodup_cons.1 once
    have accepts' := fun y mem => accepts y (List.mem_cons_of_mem _ mem)
    cases fed : e.sources.get? topic with
    | none =>
      have stray : e.sources.contains topic = false := by
        rw [SortedMap.contains, fed]
        rfl
      obtain ⟨-, same⟩ := ih once accepts'
      have left : e.taken ((topic, tables) :: rest) = e.taken rest := by
        simp [taken, stray]
      have more : e.strays ((topic, tables) :: rest) = topic :: e.strays rest := by
        simp [strays, stray]
      have outcomes : (e.flushTopics cooldown now ((topic, tables) :: rest)).2.1 =
          .error (strayTables topic) :: (e.flushTopics cooldown now rest).2.1 := by
        simp only [flushTopics, flushTopic, fed]
      rw [left, more, outcomes]
      refine ⟨by simp [faults], ?_⟩
      exact (same.cons FaultKind.unknownTopic).trans List.perm_middle.symm
    | some source =>
      have contains : e.sources.contains topic = true := by
        rw [SortedMap.contains, fed]
        rfl
      have sources := (e.flushTables_frame cooldown now tables).2.1
      have fed' : (e.flushTables cooldown now tables).1.sources.get? topic = some source := by
        rw [sources, fed]
      have keeps : ∀ other, (e.flushTopic topic tables cooldown now).state.sources.contains other =
          e.sources.contains other := fun other => by
        rw [flushTopic_state fed, contains_settle fed', sources]
      have accepts'' : ∀ y ∈ rest, ∀ source,
          (e.flushTopic topic tables cooldown now).state.sources.get? y.1 = some source →
            Source.Accepts source := by
        intro y mem source there
        have ne : y.1 ≠ topic := by
          rintro rfl
          exact fresh (List.mem_map.2 ⟨y, mem, rfl⟩)
        rw [(e.flushTopic_frame ne tables cooldown now).1] at there
        exact accepts' y mem source there
      obtain ⟨none, same⟩ := ih once accepts''
      have left : e.taken ((topic, tables) :: rest) = tables ++ e.taken rest := by
        simp [taken, contains]
      have later : (e.flushTopic topic tables cooldown now).state.taken rest = e.taken rest := by
        simp only [taken, keeps]
      have others : e.strays ((topic, tables) :: rest) = e.strays rest := by
        simp [strays, contains]
      have others' : (e.flushTopic topic tables cooldown now).state.strays rest =
          e.strays rest := by
        simp only [strays, keeps]
      have outcomes : (e.flushTopics cooldown now ((topic, tables) :: rest)).2.1 =
          (e.flushTopic topic tables cooldown now).outcome ::
            ((e.flushTopic topic tables cooldown now).state.flushTopics cooldown now rest).2.1 := rfl
      rw [later, others', flushTopic_state fed, flushTables_settle] at none same
      rw [left, others, outcomes, flushTables_append, flushTopic_state fed,
        flushTopic_outcome fed (accepts _ List.mem_cons_self source fed)]
      constructor
      · rw [FlushOutcomes.faults_joined_cons, none, FlushOutcomes.faults_append]
        simp [and_assoc]
      · rw [List.flatMap_cons, FlushOutcomes.kinds_joined, FlushOutcomes.faults_append,
          List.flatMap_append, List.append_assoc]
        exact same.append_left _

/-! ## All topics -/

/-- What a flush of all topics reports and leaves behind. -/
structure Reports (e : Engine δ κ) (order : FlushOrder) (now : Nat) (failed : List TableId)
    (strays : List String) : Prop where
  /-- No table is named twice. -/
  failedOnce : failed.Nodup
  /-- The tables whose last call failed. -/
  failed_iff : ∀ t, t ∈ failed ↔ (Call.lastFault? (Call.about t (e.calls order now))).isSome
  /-- No topic is named twice. -/
  straysOnce : strays.Nodup
  /-- The topics that have tables and no source. -/
  strays_iff : ∀ topic, topic ∈ strays ↔
    e.registry.tablesOf topic ≠ [] ∧ e.sources.contains topic = false
  /-- The flush succeeds if and only if there are none. -/
  ok_iff : (e.flush order now).outcome = .ok () ↔ failed = [] ∧ strays = []
  /-- The kinds are those of the last faults of the tables, and one for each of the topics. -/
  kinds : (kinds (e.flush order now).outcome).Perm
    ((failed.filterMap fun t =>
        Call.lastFault? (Call.about t (e.calls order now))).flatMap Fault.kinds ++
      strays.map fun _ => .unknownTopic)
  /-- The tables of a topic without a source are left alone. -/
  untouched : ∀ topic ∈ strays, ∀ t ∈ e.registry.tablesOf topic,
    Call.about t (e.calls order now) = [] ∧
      (e.flush order now).state.registry.get? t = e.registry.get? t
  /-- All other tables are flushed. -/
  flushed : ∀ topic, e.sources.contains topic = true → ∀ t ∈ e.registry.tablesOf topic,
    ∃ b flush, e.registry.get? t = some b ∧
      b.Calls order.cooldown now (Call.about t (e.calls order now)) flush ∧
      (e.flush order now).state.registry.get? t = some flush.buffer

/-- The tables whose last call failed. -/
def failedIn (e : Engine δ κ) (order : FlushOrder) (now : Nat) : List TableId :=
  (e.reached order).filter fun t => (Call.lastFault? (Call.about t (e.calls order now))).isSome

theorem mem_failedIn_iff (h : e.Reachable) (order : FlushOrder) (now : Nat) (t : TableId) :
    t ∈ e.failedIn order now ↔
      (Call.lastFault? (Call.about t (e.calls order now))).isSome := by
  simp only [failedIn, List.mem_filter, and_iff_right_iff_imp]
  intro fails
  by_contra left
  rw [((calls_flush h order now).2.1 t left).1] at fails
  cases fails

theorem lastFaults_failedIn (e : Engine δ κ) (order : FlushOrder) (now : Nat) :
    (e.failedIn order now).filterMap
        (fun t => Call.lastFault? (Call.about t (e.calls order now))) =
      (e.reached order).filterMap
        fun t => Call.lastFault? (Call.about t (e.calls order now)) := by
  rw [failedIn, List.filterMap_filter]
  refine List.filterMap_congr fun t _ => ?_
  cases Call.lastFault? (Call.about t (e.calls order now)) <;> rfl

theorem failedIn_eq_nil_iff (e : Engine δ κ) (order : FlushOrder) (now : Nat) :
    (e.reached order).filterMap (fun t => Call.lastFault? (Call.about t (e.calls order now))) = [] ↔
      e.failedIn order now = [] := by
  simp [failedIn, List.filterMap_eq_nil_iff, List.filter_eq_nil_iff]

omit [Destination δ] [Source κ] in
theorem mem_taken_iff {t : TableId} :
    t ∈ e.taken e.registry.topics.toList ↔
      ∃ topic, e.sources.contains topic = true ∧ t ∈ e.registry.tablesOf topic := by
  simp only [taken, List.mem_flatMap, List.mem_ite_nil_right]
  constructor
  · rintro ⟨⟨topic, tables⟩, listed, fed, mem⟩
    have ht := SortedMap.get?_eq_some_iff.2 listed
    exact ⟨topic, fed, by simpa [TableRegistry.tablesOf, SortedMap.getD, ht] using mem⟩
  · rintro ⟨topic, fed, mem⟩
    cases ht : e.registry.topics.get? topic with
    | none => simp [TableRegistry.tablesOf, SortedMap.getD, ht] at mem
    | some tables =>
      refine ⟨(topic, tables), SortedMap.get?_eq_some_iff.1 ht, fed, ?_⟩
      simpa [TableRegistry.tablesOf, SortedMap.getD, ht] using mem

/-- In a reachable state, a flush of all topics whose sources take every commit reports every fault
once. -/
theorem reports_flush (h : e.Reachable) (order : FlushOrder) (all : order.topic = none)
    (accepts : ∀ topic source, e.sources.get? topic = some source → Source.Accepts source)
    (now : Nat) : ∃ failed strays, e.Reports order now failed strays := by
  have selected : e.selection order = .ok e.registry.topics.toList := by
    simp only [selection, all]
  have reached : e.reached order = e.taken e.registry.topics.toList := by
    simp only [Engine.reached, selected]
  have outcome : (e.flush order now).outcome =
      joined (faults (e.flushTopics order.cooldown now e.registry.topics.toList).2.1) := by
    simp only [flush, selected]
  have orderly := h.apart.orderly
  obtain ⟨told, left, taken⟩ := calls_flush h order now
  obtain ⟨none, same⟩ := faults_flushTopics e.registry.topics.toList
    (SortedMap.nodup_keys _) (fun x _ => accepts x.1) order.cooldown now
  rw [← reached, told] at none same
  have listed : ∀ topic t, t ∈ e.registry.tablesOf topic →
      ∃ b, e.registry.get? t = some b ∧ b.topic = topic := fun topic t => (orderly.listed topic t).1
  refine ⟨e.failedIn order now, e.strays e.registry.topics.toList,
    (nodup_reached orderly order).filter _, mem_failedIn_iff h order now, ?_, ?_, ?_, ?_, ?_, ?_⟩
  · exact (SortedMap.nodup_keys _).filter _
  · intro topic
    simp [strays, h.peopled.mem_topics_iff]
  · rw [outcome, FlushOutcomes.joined_eq_ok_iff, none, failedIn_eq_nil_iff]
  · rw [outcome, FlushOutcomes.kinds_joined, FlushOutcomes.flatMap_faults, lastFaults_failedIn]
    exact same
  · intro topic stray t mem
    refine left t ?_
    rw [reached, mem_taken_iff]
    rintro ⟨other, fed, mem'⟩
    obtain ⟨b, hb, rfl⟩ := listed topic t mem
    obtain ⟨b', hb', rfl⟩ := listed other t mem'
    obtain rfl := Option.some.inj (hb.symm.trans hb')
    simp [strays, fed] at stray
  · intro topic fed t mem
    obtain ⟨b, hb, -⟩ := listed topic t mem
    have isIn : t ∈ e.reached order := by
      rw [reached, mem_taken_iff]
      exact ⟨topic, fed, mem⟩
    obtain ⟨flush, made, after⟩ := taken t isIn b hb
    exact ⟨b, flush, hb, made, after⟩

/-- One table fails, one belongs to a topic without a source, and one is written. -/
theorem reports_flush_trialFailing :
    ∃ failed strays, trialFailing.Reports .shutdown 0 failed strays ∧
      ⟨"public", "items"⟩ ∈ failed ∧ "online" ∈ strays ∧
      ((trialFailing.flush .shutdown 0).state.registry.get? ⟨"public", "orders"⟩).map
        (fun b => b.window.isSome) = some false := by
  have facts : (Call.lastFault? (Call.about ⟨"public", "items"⟩
        (trialFailing.calls .shutdown 0))).isSome ∧
      trialFailing.registry.tablesOf "online" ≠ [] ∧
      trialFailing.sources.contains "online" = false ∧
      ((trialFailing.flush .shutdown 0).state.registry.get? ⟨"public", "orders"⟩).map
        (fun b => b.window.isSome) = some false := by decide +kernel
  obtain ⟨fails, owns, stray, written⟩ := facts
  obtain ⟨failed, strays, reports⟩ := reports_flush reachable_trialFailing .shutdown rfl
    (fun _ q _ => q.accepts) 0
  exact ⟨failed, strays, reports, (reports.failed_iff _).2 fails,
    (reports.strays_iff _).2 ⟨owns, stray⟩, written⟩

end Engine

end ChangeCapture
