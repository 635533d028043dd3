import ChangeCapture.Proofs.Engine.Interchange

/-!
# The ends of topics

What a topic ends with is told by its source, its held messages and the outcomes of
its tables (`TopicEnd.of`).  In a flush over a store with a plan for each table, each
table ends as it does alone, so each topic ends as its tables tell, whatever was
flushed before it (`Engine.flushTopics_endings`).
-/

namespace ChangeCapture

/-! ## Kinds of faults -/

theorem Fault.allKinds_eq_flatMap (fs : List Fault) : allKinds fs = fs.flatMap kinds := by
  induction fs with
  | nil => rfl
  | cons f rest ih => rw [allKinds, ih, List.flatMap_cons]

namespace FlushOutcomes

variable {α : Type}

/-- The kinds of the faults in an outcome. -/
def kinds : Outcome α → List FaultKind
  | .ok _ => []
  | .error f => f.kinds

theorem kinds_joined (fs : List Fault) : kinds (joined fs) = fs.flatMap Fault.kinds := by
  match fs with
  | [] => rfl
  | [f] => exact (List.flatMap_singleton Fault.kinds f).symm
  | f :: f' :: rest => exact Fault.allKinds_eq_flatMap _

theorem faults_cons (outcome : Outcome α) (outcomes : List (Outcome α)) :
    faults (outcome :: outcomes) = faults [outcome] ++ faults outcomes := by
  cases outcome <;> rfl

theorem flatMap_faults (outcomes : List (Outcome α)) :
    (faults outcomes).flatMap Fault.kinds = outcomes.flatMap kinds := by
  induction outcomes with
  | nil => rfl
  | cons outcome rest ih =>
    rw [List.flatMap_cons, ← ih]
    cases outcome <;> rfl

theorem joined_eq_ok_iff (fs : List Fault) : joined fs = .ok () ↔ fs = [] := by
  cases fs with
  | nil => simp [joined]
  | cons f rest => simp [joined]

theorem faults_of_complete {outcomes : List (Outcome TableFlush)} (complete : areComplete outcomes) :
    faults outcomes = [] := by
  refine List.filterMap_eq_nil_iff.2 fun outcome mem => ?_
  have through := List.all_eq_true.1 complete outcome mem
  cases outcome with
  | ok flush => rfl
  | error f => cases through

theorem messages_perm {outcomes outcomes' : List (Outcome TableFlush)}
    (same : outcomes.Perm outcomes') : (messages outcomes).Perm (messages outcomes') :=
  same.flatMap_right _

theorem areComplete_perm {outcomes outcomes' : List (Outcome TableFlush)}
    (same : outcomes.Perm outcomes') : areComplete outcomes' = areComplete outcomes :=
  same.symm.all_eq

end FlushOutcomes

/-! ## The end of a topic -/

/-- What the flush of a topic leads to, apart from its tables. -/
structure TopicEnd (κ : Type) where
  /-- The source of the topic. -/
  source : Option κ
  /-- The messages that are held. -/
  held : List Message
  /-- The outcome. -/
  outcome : Outcome Unit

open FlushOutcomes (messages areComplete joined faults kinds)

/-- What a topic ends with, by the outcomes of its tables. -/
def TopicEnd.of {κ : Type} [Source κ] (topic : String) (source : Option κ) (held : List Message)
    (outcomes : List (Outcome TableFlush)) : TopicEnd κ :=
  match source with
  | none => ⟨none, held, .error (Engine.strayTables topic)⟩
  | some source =>
    if messages outcomes ++ held = [] then ⟨some source, [], joined (faults outcomes)⟩
    else
      let ms := Message.summary (messages outcomes ++ held)
      if areComplete outcomes then
        ⟨some (Source.commit source ms).2, [], (Source.commit source ms).1⟩
      else ⟨some source, ms, joined (faults outcomes)⟩

/-- The source takes every commit. -/
def Source.Accepts {κ : Type} [Source κ] (source : κ) : Prop :=
  ∀ ms, (Source.commit source ms).1 = .ok ()

theorem MessageQueue.accepts (q : MessageQueue) : Source.Accepts q := fun _ => rfl

namespace TopicEnd

variable {κ : Type} [Source κ] {source : κ} {topic : String} {held : List Message}
  {outcomes : List (Outcome TableFlush)}

/-- If the source takes every commit, a topic fails with the faults of its tables only. -/
theorem outcome_of (accepts : Source.Accepts source) :
    (TopicEnd.of topic (some source) held outcomes).outcome = joined (faults outcomes) := by
  simp only [TopicEnd.of]
  split
  · rfl
  · split
    · rename_i complete
      rw [FlushOutcomes.faults_of_complete complete]
      exact accepts _
    · rfl

theorem kinds_of (accepts : Source.Accepts source) :
    kinds (TopicEnd.of topic (some source) held outcomes).outcome = outcomes.flatMap kinds := by
  rw [outcome_of accepts, FlushOutcomes.kinds_joined, FlushOutcomes.flatMap_faults]

end TopicEnd

namespace Engine

section Settle

variable {δ κ : Type} [Source κ]

/-- The end of a topic is told by its source, its held messages and the outcomes of its tables. -/
theorem settle_ends {e : Engine δ κ} {topic : String} {source : κ}
    (fed : e.sources.get? topic = some source) (outcomes : List (Outcome TableFlush)) :
    TopicEnd.of topic (some source) (e.held.getD topic []) outcomes =
      ⟨(e.settle topic source outcomes).1.sources.get? topic,
        (e.settle topic source outcomes).1.held.getD topic [],
        (e.settle topic source outcomes).2⟩ := by
  have erased : (e.held.erase topic).getD topic [] = [] := by
    rw [SortedMap.getD_erase, if_pos rfl]
  unfold TopicEnd.of settle
  by_cases none : messages outcomes ++ e.held.getD topic [] = []
  · simp [none, fed, erased]
  · by_cases complete : areComplete outcomes
    · simp [none, complete, commit, erased, SortedMap.get?_insert_self]
    · simp [none, complete, fed, SortedMap.getD_insert]

theorem settle_outside (e : Engine δ κ) (topic : String) (source : κ)
    (outcomes : List (Outcome TableFlush)) :
    (e.settle topic source outcomes).1 =
      { e with
        sources := (e.settle topic source outcomes).1.sources
        held := (e.settle topic source outcomes).1.held } := by
  by_cases none : e.due topic outcomes = []
  · rw [settle_of_nil none]
  · cases complete : areComplete outcomes with
    | true => rw [settle_of_complete none complete]
    | false => rw [settle_of_incomplete none complete]

end Settle

/-! ## Tables and topics one after the other -/

section Topics

variable {δ κ : Type} [Destination δ] {e : Engine δ κ}

theorem flushTable_outside (e : Engine δ κ) (sources : SortedMap String κ)
    (held : SortedMap String (List Message)) (t : TableId) (cooldown : Option Nat) (now : Nat) :
    ({ e with sources := sources, held := held } : Engine δ κ).flushTable t cooldown now =
      ⟨{ (e.flushTable t cooldown now).state with sources := sources, held := held },
        (e.flushTable t cooldown now).outcome, (e.flushTable t cooldown now).paused⟩ := by
  simp only [flushTable]
  cases e.registry.get? t with
  | none => rfl
  | some b =>
    simp only
    cases b.startFlush cooldown now with
    | done flush => rfl
    | write w =>
      simp only [writeWindow]
      cases (e.retry.run (fun _ d => Destination.describe d w.path) e.destination).outcome with
      | error f => rfl
      | ok description =>
        simp only
        cases (e.retry.run (fun _ d => Destination.write d (w.adopt description.columns))
          (e.retry.run (fun _ d => Destination.describe d w.path) e.destination).state).outcome with
        | error f => rfl
        | ok commits => cases commits <;> rfl

theorem flushTables_outside (e : Engine δ κ) (sources : SortedMap String κ)
    (held : SortedMap String (List Message)) (cooldown : Option Nat) (now : Nat)
    (tables : List TableId) :
    ({ e with sources := sources, held := held } : Engine δ κ).flushTables cooldown now tables =
      ({ (e.flushTables cooldown now tables).1 with sources := sources, held := held },
        (e.flushTables cooldown now tables).2) := by
  induction tables generalizing e with
  | nil => rfl
  | cons t rest ih =>
    simp only [flushTables, flushTable_outside, ih]

theorem flushTables_append (e : Engine δ κ) (cooldown : Option Nat) (now : Nat)
    (tables more : List TableId) :
    e.flushTables cooldown now (tables ++ more) =
      (((e.flushTables cooldown now tables).1.flushTables cooldown now more).1,
        (e.flushTables cooldown now tables).2.1 ++
          ((e.flushTables cooldown now tables).1.flushTables cooldown now more).2.1,
        max (e.flushTables cooldown now tables).2.2
          ((e.flushTables cooldown now tables).1.flushTables cooldown now more).2.2) := by
  induction tables generalizing e with
  | nil => simp [flushTables]
  | cons t rest ih => simp [flushTables, ih, Nat.max_assoc]

/-- The tables that a flush of topics comes to.  Those of a topic without a source are left out. -/
def taken (e : Engine δ κ) (topics : List (String × List TableId)) : List TableId :=
  topics.flatMap fun x => if e.sources.contains x.1 then x.2 else []

variable [Source κ]

theorem flushTables_settle (e : Engine δ κ) (topic : String) (source : κ)
    (outcomes : List (Outcome TableFlush)) (cooldown : Option Nat) (now : Nat)
    (tables : List TableId) :
    (e.settle topic source outcomes).1.flushTables cooldown now tables =
      ({ (e.flushTables cooldown now tables).1 with
          sources := (e.settle topic source outcomes).1.sources
          held := (e.settle topic source outcomes).1.held },
        (e.flushTables cooldown now tables).2) := by
  rw [← flushTables_outside, ← settle_outside]

/-- A flush of topics does to the buffers and to the destination what the flush of their tables
does. -/
theorem flushTopics_tables (e : Engine δ κ) (cooldown : Option Nat) (now : Nat)
    (topics : List (String × List TableId)) :
    (e.flushTopics cooldown now topics).1.registry =
        (e.flushTables cooldown now (e.taken topics)).1.registry ∧
      (e.flushTopics cooldown now topics).1.destination =
        (e.flushTables cooldown now (e.taken topics)).1.destination ∧
      (e.flushTopics cooldown now topics).2.2 =
        (e.flushTables cooldown now (e.taken topics)).2.2 := by
  induction topics generalizing e with
  | nil => exact ⟨rfl, rfl, rfl⟩
  | cons x rest ih =>
    obtain ⟨topic, tables⟩ := x
    cases fed : e.sources.get? topic with
    | none =>
      have stray : e.sources.contains topic = false := by
        rw [SortedMap.contains, fed]
        rfl
      have left : e.taken ((topic, tables) :: rest) = e.taken rest := by
        simp [taken, stray]
      obtain ⟨registry, destination, paused⟩ := ih e
      rw [left]
      simp only [flushTopics, flushTopic, fed, Nat.zero_max]
      exact ⟨registry, destination, paused⟩
    | some source =>
      have contains : e.sources.contains topic = true := by
        rw [SortedMap.contains, fed]
        rfl
      have first : e.taken ((topic, tables) :: rest) = tables ++ e.taken rest := by
        simp [taken, contains]
      have sources := (e.flushTables_frame cooldown now tables).2.1
      have fed' : (e.flushTables cooldown now tables).1.sources.get? topic = some source := by
        rw [sources, fed]
      have later : (e.flushTopic topic tables cooldown now).state.taken rest = e.taken rest := by
        simp only [taken, flushTopic_state fed, contains_settle fed', sources]
      obtain ⟨registry, destination, paused⟩ := ih (e.flushTopic topic tables cooldown now).state
      rw [later, flushTopic_state fed, flushTables_settle] at registry destination paused
      rw [first, flushTables_append, flushTopics_cons, flushTopic_state fed]
      refine ⟨registry, destination, ?_⟩
      simp only [flushTopics, flushTopic, fed]
      rw [paused]

theorem flushTopic_frame (e : Engine δ κ) {topic other : String} (ne : topic ≠ other)
    (tables : List TableId) (cooldown : Option Nat) (now : Nat) :
    (e.flushTopic other tables cooldown now).state.sources.get? topic = e.sources.get? topic ∧
      (e.flushTopic other tables cooldown now).state.held.getD topic [] =
        e.held.getD topic [] := by
  cases fed : e.sources.get? other with
  | none =>
    rw [flushTopic_of_stray fed]
    exact ⟨rfl, rfl⟩
  | some source =>
    obtain ⟨-, sources, held⟩ := e.flushTables_frame cooldown now tables
    rw [flushTopic_state fed, ← sources, ← held]
    exact settle_frame _ ne source _

theorem flushTopics_frame (e : Engine δ κ) {topic : String} (cooldown : Option Nat) (now : Nat)
    {topics : List (String × List TableId)} (left : topic ∉ topics.map Prod.fst) :
    (e.flushTopics cooldown now topics).1.sources.get? topic = e.sources.get? topic ∧
      (e.flushTopics cooldown now topics).1.held.getD topic [] = e.held.getD topic [] := by
  induction topics generalizing e with
  | nil => exact ⟨rfl, rfl⟩
  | cons x rest ih =>
    rw [List.map_cons, List.mem_cons, not_or] at left
    obtain ⟨sources, held⟩ := e.flushTopic_frame left.1 x.2 cooldown now
    obtain ⟨sources', held'⟩ := ih (e.flushTopic x.1 x.2 cooldown now).state left.2
    exact ⟨sources'.trans sources, held'.trans held⟩

/-- What a topic ends with if each of its tables ends as it does alone. -/
def ending (e : Engine δ κ) (cooldown : Option Nat) (now : Nat) (x : String × List TableId) :
    TopicEnd κ :=
  .of x.1 (e.sources.get? x.1) (e.held.getD x.1 [])
    (x.2.map fun t => (e.flushTable t cooldown now).outcome)

end Topics

/-- The topics are different, and the tables of each are different tables of the topic. -/
structure Lists (r : TableRegistry) (topics : List (String × List TableId)) : Prop where
  /-- The topics are different. -/
  once : (topics.map Prod.fst).Nodup
  /-- The tables of each topic are different. -/
  each : ∀ x ∈ topics, x.2.Nodup
  /-- They are tables of the topic. -/
  listed : ∀ x ∈ topics, ∀ t ∈ x.2, t ∈ r.tablesOf x.1

namespace Lists

variable {r r' : TableRegistry} {topics : List (String × List TableId)}

theorem congr (h : Lists r topics) (same : r'.topics = r.topics) : Lists r' topics := by
  refine ⟨h.once, h.each, fun x mem t isIn => ?_⟩
  unfold TableRegistry.tablesOf
  rw [same]
  exact h.listed x mem t isIn

theorem tail {x : String × List TableId} (h : Lists r (x :: topics)) : Lists r topics :=
  ⟨(List.nodup_cons.1 h.once).2, fun y mem => h.each y (List.mem_cons_of_mem _ mem),
    fun y mem => h.listed y (List.mem_cons_of_mem _ mem)⟩

/-- No topic has a table of another one. -/
theorem foreign (h : Lists r topics) (orderly : r.Orderly) {x y : String × List TableId}
    (mem : x ∈ topics) (mem' : y ∈ topics) (ne : x.1 ≠ y.1) {t : TableId} (isIn : t ∈ y.2) :
    t ∉ x.2 := fun isIn' =>
  (orderly.arranged y.1).foreign x.1 ne t (h.listed x mem t isIn') (h.listed y mem' t isIn)

end Lists

section Taken

variable {δ κ : Type} [Destination δ] {e : Engine δ κ} {topics : List (String × List TableId)}

omit [Destination δ] in
/-- The tables that a flush comes to are different. -/
theorem nodup_taken (orderly : e.registry.Orderly) (lists : Lists e.registry topics) :
    (e.taken topics).Nodup := by
  refine List.nodup_flatMap.2 ⟨fun x mem => ?_, ?_⟩
  · split
    · exact lists.each x mem
    · exact List.nodup_nil
  · refine (List.pairwise_map.1 lists.once).imp_of_mem fun {x y} mem mem' ne => ?_
    intro t isIn isIn'
    simp only [List.mem_ite_nil_right] at isIn isIn'
    exact lists.foreign orderly mem mem' ne isIn'.2 isIn.2

omit [Destination δ] in
theorem lists_selection (orderly : e.registry.Orderly) {order : FlushOrder}
    (selected : e.selection order = .ok topics) : Lists e.registry topics := by
  have listed := selection_lists selected
  refine ⟨selection_nodup selected, fun x mem => ?_, fun x mem t isIn => ?_⟩
  · rw [listed x mem]
    exact orderly.once x.1
  · rwa [← listed x mem]

end Taken

section Planned

variable {κ : Type} {e : Engine PlannedStore κ} {t : TableId}

theorem flushTables_alone (apart : e.registry.Apart) (cooldown : Option Nat) (now : Nat)
    {tables : List TableId} (other : t ∉ tables) :
    ((e.flushTables cooldown now tables).1.flushTable t cooldown now).outcome =
      (e.flushTable t cooldown now).outcome := by
  induction tables generalizing e with
  | nil => rfl
  | cons first rest ih =>
    rw [List.mem_cons, not_or] at other
    obtain ⟨ne, other⟩ := other
    rw [flushTables_cons, ih ((e.flushTable_step first cooldown now).apart apart) other]
    exact (flushTable_comm apart (Ne.symm ne) cooldown now).2.1

variable [Source κ]

theorem apart_flushTopic (apart : e.registry.Apart) (topic : String) (tables : List TableId)
    (cooldown : Option Nat) (now : Nat) :
    (e.flushTopic topic tables cooldown now).state.registry.Apart :=
  flushTopic_induct (P := fun e => e.registry.Apart) now TableStep.apart
    (fun _ outcomes h => by rwa [(settle_keeps _ _ _ outcomes).1]) topic tables cooldown e apart

theorem flushTopic_alone (apart : e.registry.Apart) (topic : String) {tables : List TableId}
    (other : t ∉ tables) (cooldown : Option Nat) (now : Nat) :
    ((e.flushTopic topic tables cooldown now).state.flushTable t cooldown now).outcome =
      (e.flushTable t cooldown now).outcome := by
  cases fed : e.sources.get? topic with
  | none => rw [flushTopic_of_stray fed]
  | some source =>
    rw [flushTopic_state fed, settle_outside, ← flushTables_alone apart cooldown now other,
      flushTable_outside (e.flushTables cooldown now tables).1]

/-- A topic ends as its tables tell. -/
theorem flushTopic_ends (apart : e.registry.Apart) {x : String × List TableId} (once : x.2.Nodup)
    (cooldown : Option Nat) (now : Nat) :
    e.ending cooldown now x =
      ⟨(e.flushTopic x.1 x.2 cooldown now).state.sources.get? x.1,
        (e.flushTopic x.1 x.2 cooldown now).state.held.getD x.1 [],
        (e.flushTopic x.1 x.2 cooldown now).outcome⟩ := by
  unfold ending
  cases fed : e.sources.get? x.1 with
  | none => simp [TopicEnd.of, flushTopic, fed]
  | some source =>
    obtain ⟨-, sources, held⟩ := e.flushTables_frame cooldown now x.2
    rw [← (flushTables_outcomes apart once cooldown now).1, ← held, settle_ends (sources ▸ fed),
      flushTopic_state fed]
    simp only [flushTopic, fed]

theorem ending_flushTopic (apart : e.registry.Apart) {x y : String × List TableId}
    (ne : y.1 ≠ x.1) (foreign : ∀ t ∈ y.2, t ∉ x.2) (cooldown : Option Nat) (now : Nat) :
    (e.flushTopic x.1 x.2 cooldown now).state.ending cooldown now y = e.ending cooldown now y := by
  obtain ⟨sources, held⟩ := e.flushTopic_frame ne x.2 cooldown now
  unfold ending
  rw [sources, held, List.map_congr_left fun t mem =>
    flushTopic_alone apart x.1 (foreign t mem) cooldown now]

/-- Among topics that are flushed one after the other, each ends as its tables tell. -/
theorem flushTopics_endings (apart : e.registry.Apart) {topics : List (String × List TableId)}
    (lists : Lists e.registry topics) (cooldown : Option Nat) (now : Nat) :
    (e.flushTopics cooldown now topics).2.1 =
        topics.map (fun x => (e.ending cooldown now x).outcome) ∧
      ∀ x ∈ topics,
        (e.flushTopics cooldown now topics).1.sources.get? x.1 = (e.ending cooldown now x).source ∧
        (e.flushTopics cooldown now topics).1.held.getD x.1 [] =
          (e.ending cooldown now x).held ∧
        e.tableOutcomes cooldown now x.1 topics =
          x.2.map fun t => (e.flushTable t cooldown now).outcome := by
  induction topics generalizing e with
  | nil => exact ⟨rfl, nofun⟩
  | cons x rest ih =>
    have first := flushTopic_ends apart (lists.each x List.mem_cons_self) cooldown now
    obtain ⟨fresh, -⟩ := List.nodup_cons.1 lists.once
    have ne : ∀ y ∈ rest, y.1 ≠ x.1 := fun y mem same =>
      fresh (same ▸ List.mem_map_of_mem mem)
    have foreign : ∀ y ∈ rest, ∀ t ∈ y.2, t ∉ x.2 := fun y mem t =>
      lists.foreign apart.orderly List.mem_cons_self (List.mem_cons_of_mem x mem) (ne y mem).symm
    have alone : ∀ y ∈ rest, (e.flushTopic x.1 x.2 cooldown now).state.ending cooldown now y =
        e.ending cooldown now y := fun y mem =>
      ending_flushTopic apart (ne y mem) (foreign y mem) cooldown now
    obtain ⟨outcomes, ends⟩ := ih (apart_flushTopic apart x.1 x.2 cooldown now)
      (lists.tail.congr (e.flushTopic_topics x.1 x.2 cooldown now))
    constructor
    · show _ :: ((e.flushTopic x.1 x.2 cooldown now).state.flushTopics cooldown now rest).2.1 = _
      rw [outcomes, List.map_cons, first, List.map_congr_left fun y mem =>
        congrArg TopicEnd.outcome (alone y mem)]
    · intro y mem
      rw [flushTopics_cons]
      rcases List.mem_cons.1 mem with rfl | mem
      · obtain ⟨sources, held⟩ :=
          (e.flushTopic y.1 y.2 cooldown now).state.flushTopics_frame cooldown now fresh
        rw [sources, held, first]
        refine ⟨rfl, rfl, ?_⟩
        simp only [tableOutcomes, if_true]
        exact (flushTables_outcomes apart (lists.each y List.mem_cons_self) cooldown now).1
      · obtain ⟨source, held, tables⟩ := ends y mem
        rw [source, held, alone y mem]
        refine ⟨rfl, rfl, ?_⟩
        simp only [tableOutcomes, if_neg (ne y mem).symm]
        rw [tables]
        exact List.map_congr_left fun t isIn =>
          flushTopic_alone apart x.1 (foreign y mem t isIn) cooldown now

end Planned

end Engine

end ChangeCapture
