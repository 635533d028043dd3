import ChangeCapture.Engine.Flush
import ChangeCapture.Proofs.Retry
import ChangeCapture.Proofs.Table

/-!
# What a flush does

The flush of one table ends in one of six ways (`Engine.TableStep`).  Whatever
the number of attempts, the destination has at most taken the window once
before the flush of the table is over (`Destination.Probes`).  The end of a
topic has three cases (`Engine.settle_of_nil` and the two after it).
What the flush of each table and the end of each topic keep, a flush keeps
(`Engine.flush_induct`).
-/

namespace ChangeCapture

variable {δ κ : Type} [Destination δ]

/-- The order takes the tables of the topic. -/
def FlushOrder.Takes (order : FlushOrder) (topic : String) : Prop :=
  ∀ t, order.topic = some t → t = topic

/-! ## The destination between two writes -/

namespace Destination

variable {w : Window} {d d' d'' : δ}

/-- Asking about a table, or a write of the window that fails, leads from one destination to the
other.  The window may have adopted columns. -/
inductive Probe (w : Window) : δ → δ → Prop where
  /-- A table is asked about. -/
  | describe (d : δ) (p : TablePath) : Probe w d (Destination.describe d p).2
  /-- A write fails. -/
  | fail {d d' : δ} {known : ColumnRegistry} {f : Fault}
    (h : write d (w.adopt known) = (.error f, d')) : Probe w d d'

/-- Any number of probes lead from one destination to the other. -/
def Probes (w : Window) : δ → δ → Prop := Relation.ReflTransGen (Probe w)

/-- The destination told its columns of the table of a window, with probes before and after. -/
def Tells (d : δ) (w : Window) (known : ColumnRegistry) (d' : δ) : Prop :=
  ∃ asked description told, Probes w d asked ∧
    Destination.describe asked w.path = (.ok description, told) ∧
    description.columns = known ∧ Probes w told d'

theorem Probes.refl (d : δ) : Probes w d d := Relation.ReflTransGen.refl

theorem Probes.trans (h : Probes w d d') (h' : Probes w d' d'') : Probes w d d'' :=
  Relation.ReflTransGen.trans h h'

theorem probe_of_describe {p : TablePath} {outcome : Outcome TableDescription}
    (h : Destination.describe d p = (outcome, d')) : Probe w d d' := by
  have := Probe.describe (w := w) d p
  rwa [h] at this

theorem Tells.probes {known : ColumnRegistry} (h : Tells d w known d') : Probes w d d' := by
  obtain ⟨asked, description, told, before, tells, -, after⟩ := h
  exact before.trans (Relation.ReflTransGen.head (probe_of_describe tells) after)

/-- A value that no probe changes is the same after any number of them. -/
theorem Probes.eq_of_invariant {α : Type} {f : δ → α}
    (inv : ∀ {d d' : δ}, Probe w d d' → f d' = f d) (h : Probes w d d') : f d' = f d := by
  induction h with
  | refl => rfl
  | tail _ step ih => exact (inv step).trans ih

/-- Asking with retries is probing, and ends as the last question does. -/
theorem run_describe (p : RetryPolicy) (path : TablePath) (w : Window) (d : δ) :
    ∃ asked, Probes w d asked ∧
      Destination.describe asked path =
        ((p.run (fun _ d => Destination.describe d path) d).outcome,
          (p.run (fun _ d => Destination.describe d path) d).state) := by
  obtain ⟨n, asked, path', last⟩ := p.run_eq_attempt (fun _ d => Destination.describe d path) d
  refine ⟨asked, ?_, last⟩
  refine Relation.ReflTransGen.mono ?_ _ _ path'
  rintro d d' ⟨_, f, fails⟩
  exact probe_of_describe fails

/-- Writing with retries is probing, and ends as the last write does. -/
theorem run_write (p : RetryPolicy) (w : Window) (known : ColumnRegistry) (d : δ) :
    ∃ reached, Probes w d reached ∧
      write reached (w.adopt known) =
        ((p.run (fun _ d => write d (w.adopt known)) d).outcome,
          (p.run (fun _ d => write d (w.adopt known)) d).state) := by
  obtain ⟨n, reached, path, last⟩ := p.run_eq_attempt (fun _ d => write d (w.adopt known)) d
  refine ⟨reached, ?_, last⟩
  refine Relation.ReflTransGen.mono ?_ _ _ path
  rintro d d' ⟨_, f, fails⟩
  exact .fail fails

end Destination

/-! ## One table -/

namespace Engine

open Destination (Probes Tells)

/-- How the flush of a table ends, and in which state. -/
inductive TableStep (e : Engine δ κ) (t : TableId) (cooldown : Option Nat) (now : Nat) :
    Engine δ κ → Outcome TableFlush → Prop where
  /-- No row was buffered. -/
  | nothing (h : e.registry.Vacant t) :
    TableStep e t cooldown now e (.ok .nothing)
  /-- The table was flushed within the cooldown. -/
  | cooled {b : TableBuffer} {w : Window} (h : e.registry.Holds t b w) {c : Nat}
    (hc : cooldown = some c) (cooling : b.isCooling c now) :
    TableStep e t cooldown now e (.ok .kept)
  /-- The destination did not tell what it knows. -/
  | unknown {b : TableBuffer} {w : Window} (h : e.registry.Holds t b w) {d : δ}
    (probes : Probes w e.destination d) (f : Fault) :
    TableStep e t cooldown now { e with destination := d } (.error f)
  /-- The write failed. -/
  | failed {b : TableBuffer} {w : Window} (h : e.registry.Holds t b w) {d : δ}
    {known : ColumnRegistry} (tells : Tells e.destination w known d) (f : Fault) :
    TableStep e t cooldown now ({ e with destination := d }.setWindow b (w.adopt known)) (.error f)
  /-- The destination took the rows and did not allow a commit. -/
  | denied {b : TableBuffer} {w : Window} (h : e.registry.Holds t b w) {d d' : δ}
    {known : ColumnRegistry} (tells : Tells e.destination w known d)
    (write : Destination.write d (w.adopt known) = (.ok false, d')) :
    TableStep e t cooldown now ({ e with destination := d' }.setWindow b (w.adopt known))
      (.ok .kept)
  /-- The destination took the rows and allowed a commit. -/
  | written {b : TableBuffer} {w : Window} (h : e.registry.Holds t b w) {d d' : δ}
    {known : ColumnRegistry} (tells : Tells e.destination w known d)
    (write : Destination.write d (w.adopt known) = (.ok true, d')) (finished : Nat) :
    TableStep e t cooldown now
      { e with destination := d', registry := e.registry.set b.tableId (b.wipe finished) }
      (.ok (.written w.lastMessages))

theorem writeWindow_step {e : Engine δ κ} {t : TableId} {b : TableBuffer} {w : Window}
    (h : e.registry.Holds t b w) (cooldown : Option Nat) (now : Nat) :
    TableStep e t cooldown now (e.writeWindow b w now).state (e.writeWindow b w now).outcome := by
  obtain ⟨asked, probes, last⟩ := Destination.run_describe e.retry w.path w e.destination
  unfold writeWindow
  cases hd : (e.retry.run (fun _ d => Destination.describe d w.path) e.destination).outcome with
  | error f =>
    simp only [hd]
    exact .unknown h (probes.trans (.single (Destination.probe_of_describe last))) f
  | ok description =>
    simp only [hd]
    rw [hd] at last
    obtain ⟨reached, probes', last'⟩ :=
      Destination.run_write e.retry w description.columns
        (e.retry.run (fun _ d => Destination.describe d w.path) e.destination).state
    have tells : Tells e.destination w description.columns reached :=
      ⟨asked, description, _, probes, last, rfl, probes'⟩
    split
    · rename_i f hw
      rw [hw] at last'
      have fails := Probes.trans probes' (.single (.fail last'))
      exact .failed h ⟨asked, description, _, probes, last, rfl, fails⟩ f
    · rename_i commits hw
      rw [hw] at last'
      cases commits with
      | false => exact .denied h tells last'
      | true => exact .written h tells last' _

/-- The flush of a table ends in one of the ways listed. -/
theorem flushTable_step (e : Engine δ κ) (t : TableId) (cooldown : Option Nat) (now : Nat) :
    TableStep e t cooldown now (e.flushTable t cooldown now).state
      (e.flushTable t cooldown now).outcome := by
  simp only [flushTable]
  cases hb : e.registry.get? t with
  | none =>
    refine .nothing fun b h => ?_
    rw [hb] at h
    cases h
  | some b =>
    cases hw : b.window with
    | none =>
      have start : b.startFlush cooldown now = .done .nothing := by
        simp only [TableBuffer.startFlush]
        rw [hw]
      simp only [start]
      refine .nothing fun b' h => ?_
      obtain rfl := Option.some.inj (hb.symm.trans h)
      simp [TableBuffer.isEmpty, hw]
    | some w =>
      cases filled : w.isEmpty with
      | true =>
        have start : b.startFlush cooldown now = .done .nothing := by
          simp only [TableBuffer.startFlush]
          simp [hw, filled]
        simp only [start]
        refine .nothing fun b' h => ?_
        obtain rfl := Option.some.inj (hb.symm.trans h)
        simp [TableBuffer.isEmpty, hw, filled]
      | false =>
        have holds : e.registry.Holds t b w := ⟨hb, hw, filled⟩
        cases cools : cooldown.any fun cooldown => b.isCooling cooldown now with
        | true =>
          have start : b.startFlush cooldown now = .done .kept := by
            simp only [TableBuffer.startFlush]
            simp [hw, filled, cools]
          simp only [start]
          obtain ⟨c, hc, cooling⟩ := Option.any_eq_true _ _ |>.1 cools
          exact .cooled holds hc cooling
        | false =>
          have start : b.startFlush cooldown now = .write w := by
            simp only [TableBuffer.startFlush]
            simp [hw, filled, cools]
          simp only [start]
          exact writeWindow_step holds cooldown now

/-! ## The tables of a topic -/

theorem flushTables_cons (e : Engine δ κ) (cooldown : Option Nat) (now : Nat) (t : TableId)
    (rest : List TableId) :
    (e.flushTables cooldown now (t :: rest)).1 =
      ((e.flushTable t cooldown now).state.flushTables cooldown now rest).1 := rfl

theorem flushTables_outcomes_cons (e : Engine δ κ) (cooldown : Option Nat) (now : Nat) (t : TableId)
    (rest : List TableId) :
    (e.flushTables cooldown now (t :: rest)).2.1 =
      (e.flushTable t cooldown now).outcome ::
        ((e.flushTable t cooldown now).state.flushTables cooldown now rest).2.1 := rfl

/-- The flush of one table keeps the lists of tables, the sources and the held messages. -/
theorem TableStep.frame {e e' : Engine δ κ} {t : TableId} {cooldown : Option Nat} {now : Nat}
    {outcome : Outcome TableFlush} (h : TableStep e t cooldown now e' outcome) :
    e'.registry.topics = e.registry.topics ∧ e'.sources = e.sources ∧ e'.held = e.held := by
  cases h <;> exact ⟨rfl, rfl, rfl⟩

theorem TableStep.retry_eq {e e' : Engine δ κ} {t : TableId} {cooldown : Option Nat} {now : Nat}
    {outcome : Outcome TableFlush} (h : TableStep e t cooldown now e' outcome) :
    e'.retry = e.retry := by
  cases h <;> rfl

/-- The flush of one table leaves all buffers as they are, or it replaces the buffer of the table.
The window goes away then, or its columns are adopted. -/
theorem TableStep.replaces {e e' : Engine δ κ} {t : TableId} {cooldown : Option Nat} {now : Nat}
    {outcome : Outcome TableFlush} (named : e.registry.Named)
    (h : TableStep e t cooldown now e' outcome) :
    e'.registry = e.registry ∨
      ∃ b b', e.registry.get? t = some b ∧ b'.tableId = t ∧ b'.topic = b.topic ∧
        (∀ v, b'.window = some v → ∃ w known, b.window = some w ∧ v = w.adopt known) ∧
        e'.registry = e.registry.set t b' := by
  have adopted : ∀ {b w} (known : ColumnRegistry), e.registry.Holds t b w →
      ∃ b₀ b', e.registry.get? t = some b₀ ∧ b'.tableId = t ∧ b'.topic = b₀.topic ∧
        (∀ v, b'.window = some v → ∃ w known, b₀.window = some w ∧ v = w.adopt known) ∧
        e.registry.set b.tableId (b.setWindow (w.adopt known)) = e.registry.set t b' := by
    intro b w known holds
    have name := named t b holds.buffer
    refine ⟨b, b.setWindow (w.adopt known), holds.buffer, name, rfl, ?_, by rw [name]⟩
    intro v hv
    exact ⟨w, known, holds.window, (Option.some.inj hv).symm⟩
  cases h with
  | nothing _ => exact .inl rfl
  | cooled _ _ _ => exact .inl rfl
  | unknown _ _ _ => exact .inl rfl
  | failed holds _ _ => exact .inr (adopted _ holds)
  | denied holds _ _ => exact .inr (adopted _ holds)
  | @written b w holds _ _ _ _ _ finished =>
    have name := named t b holds.buffer
    refine .inr ⟨b, b.wipe finished, holds.buffer, name, rfl, ?_, by rw [name]⟩
    intro v hv
    cases hv

/-- A table that is there stays there. -/
theorem TableStep.registered {e e' : Engine δ κ} {t t' : TableId} {cooldown : Option Nat}
    {now : Nat} {outcome : Outcome TableFlush} (named : e.registry.Named)
    (h : TableStep e t cooldown now e' outcome) (there : ∃ b, e.registry.get? t' = some b) :
    ∃ b, e'.registry.get? t' = some b := by
  rcases h.replaces named with same | ⟨b, b', -, -, -, -, replaced⟩
  · rwa [same]
  · rw [replaced, TableRegistry.get?_set]
    split
    · exact ⟨_, rfl⟩
    · exact there

/-- The flush of one table keeps the buffers of the others. -/
theorem TableStep.get?_of_ne {e e' : Engine δ κ} {t t' : TableId} {cooldown : Option Nat}
    {now : Nat} {outcome : Outcome TableFlush} (named : e.registry.Named)
    (h : TableStep e t cooldown now e' outcome) (ne : t' ≠ t) :
    e'.registry.get? t' = e.registry.get? t' := by
  rcases h.replaces named with same | ⟨b, b', -, -, -, -, replaced⟩
  · rw [same]
  · rw [replaced, TableRegistry.get?_set, if_neg ne]

/-- No table gets a buffer. -/
theorem TableStep.known {e e' : Engine δ κ} {t t' : TableId} {cooldown : Option Nat}
    {now : Nat} {outcome : Outcome TableFlush} (named : e.registry.Named)
    (h : TableStep e t cooldown now e' outcome) {b : TableBuffer}
    (hb : e'.registry.get? t' = some b) : ∃ b', e.registry.get? t' = some b' := by
  rcases h.replaces named with same | ⟨b₀, b', there, -, -, -, replaced⟩
  · exact ⟨b, same ▸ hb⟩
  · rw [replaced, TableRegistry.get?_set] at hb
    split at hb
    · rename_i same
      exact ⟨b₀, same ▸ there⟩
    · exact ⟨b, hb⟩

theorem TableStep.named {e e' : Engine δ κ} {t : TableId} {cooldown : Option Nat}
    {now : Nat} {outcome : Outcome TableFlush} (named : e.registry.Named)
    (h : TableStep e t cooldown now e' outcome) : e'.registry.Named := by
  rcases h.replaces named with same | ⟨b, b', -, rfl, -, -, replaced⟩
  · rwa [same]
  · rw [replaced]
    exact named.set b'

/-- What was vacant stays vacant. -/
theorem TableStep.vacant {e e' : Engine δ κ} {t t' : TableId} {cooldown : Option Nat}
    {now : Nat} {outcome : Outcome TableFlush} (named : e.registry.Named)
    (h : TableStep e t cooldown now e' outcome) (vacant : e.registry.Vacant t') :
    e'.registry.Vacant t' := by
  by_cases same : t' = t
  · subst same
    cases h with
    | nothing _ => exact vacant
    | cooled holds _ _ => exact absurd holds vacant.not_holds
    | unknown holds _ _ => exact absurd holds vacant.not_holds
    | failed holds _ _ => exact absurd holds vacant.not_holds
    | denied holds _ _ => exact absurd holds vacant.not_holds
    | written holds _ _ _ => exact absurd holds vacant.not_holds
  · intro b hb
    rw [h.get?_of_ne named same] at hb
    exact vacant b hb

theorem TableStep.named_vacant {e e' : Engine δ κ} {t t' : TableId} {cooldown : Option Nat}
    {now : Nat} {outcome : Outcome TableFlush} (h : TableStep e t cooldown now e' outcome)
    (kept : e.registry.Named ∧ e.registry.Vacant t') :
    e'.registry.Named ∧ e'.registry.Vacant t' :=
  ⟨h.named kept.1, h.vacant kept.1 kept.2⟩

/-- A table that did not fail and was not left alone is vacant afterwards. -/
theorem TableStep.vacant_self {e e' : Engine δ κ} {t : TableId} {cooldown : Option Nat}
    {now : Nat} {flush : TableFlush} (named : e.registry.Named)
    (h : TableStep e t cooldown now e' (.ok flush)) (through : flush.isKept = false) :
    e'.registry.Vacant t := by
  cases h with
  | nothing vacant => exact vacant
  | cooled _ _ _ => cases through
  | denied _ _ _ => cases through
  | written holds _ _ finished =>
    intro b hb
    have hb := (TableRegistry.get?_set _ _ _ _).symm.trans hb
    rw [if_pos (named t _ holds.buffer).symm] at hb
    rw [← Option.some.inj hb]
    rfl

/-- The flush of a list of tables keeps what the flush of one table of the list keeps. -/
theorem flushTables_induct {P : Engine δ κ → Prop} (tables : List TableId) (cooldown : Option Nat)
    (now : Nat) (step : ∀ {e e' : Engine δ κ} {t : TableId} {outcome : Outcome TableFlush},
      t ∈ tables → TableStep e t cooldown now e' outcome → P e → P e')
    (e : Engine δ κ) (h : P e) : P (e.flushTables cooldown now tables).1 := by
  induction tables generalizing e with
  | nil => exact h
  | cons t rest ih =>
    rw [flushTables_cons]
    refine ih (fun mem => step (List.mem_cons_of_mem t mem)) _ ?_
    exact step List.mem_cons_self (e.flushTable_step t cooldown now) h

theorem flushTables_frame (e : Engine δ κ) (cooldown : Option Nat) (now : Nat)
    (tables : List TableId) :
    (e.flushTables cooldown now tables).1.registry.topics = e.registry.topics ∧
      (e.flushTables cooldown now tables).1.sources = e.sources ∧
      (e.flushTables cooldown now tables).1.held = e.held := by
  refine flushTables_induct (P := fun e' => e'.registry.topics = e.registry.topics ∧
    e'.sources = e.sources ∧ e'.held = e.held) tables cooldown now ?_ e ⟨rfl, rfl, rfl⟩
  rintro e' e'' t outcome - step ⟨topics, sources, held⟩
  obtain ⟨topics', sources', held'⟩ := step.frame
  exact ⟨topics'.trans topics, sources'.trans sources, held'.trans held⟩

/-- If no table failed or was left alone, all of them are vacant afterwards. -/
theorem vacant_of_complete {e : Engine δ κ} {cooldown : Option Nat} {now : Nat}
    {tables : List TableId} (named : e.registry.Named)
    (complete : FlushOutcomes.areComplete (e.flushTables cooldown now tables).2.1) :
    ∀ t ∈ tables, (e.flushTables cooldown now tables).1.registry.Vacant t := by
  induction tables generalizing e with
  | nil =>
    intro t mem
    cases mem
  | cons first rest ih =>
    have step := e.flushTable_step first cooldown now
    rw [flushTables_outcomes_cons] at complete
    simp only [FlushOutcomes.areComplete, List.all_cons, Bool.and_eq_true] at complete
    intro t mem
    rw [flushTables_cons]
    rcases List.mem_cons.1 mem with rfl | mem
    · have vacant : (e.flushTable t cooldown now).state.registry.Vacant t := by
        revert complete step
        cases (e.flushTable t cooldown now).outcome with
        | error f => simp
        | ok flush =>
          intro step complete
          exact step.vacant_self named (by simpa using complete.1)
      have kept := flushTables_induct
        (P := fun e => e.registry.Named ∧ e.registry.Vacant t) rest cooldown now
        (fun _ => TableStep.named_vacant) _ ⟨step.named named, vacant⟩
      exact kept.2
    · exact ih (step.named named) complete.2 t mem

/-! ## The end of a topic -/

variable [Source κ]

/-- The messages that the end of a topic deals with. -/
def due (e : Engine δ κ) (topic : String) (outcomes : List (Outcome TableFlush)) : List Message :=
  FlushOutcomes.messages outcomes ++ e.held.getD topic []

omit [Destination δ] in
/-- With no messages at hand nothing changes but that none are held. -/
theorem settle_of_nil {e : Engine δ κ} {topic : String} {source : κ}
    {outcomes : List (Outcome TableFlush)} (h : e.due topic outcomes = []) :
    (e.settle topic source outcomes).1 = { e with held := e.held.erase topic } := by
  unfold due at h
  simp [settle, h]

omit [Destination δ] in
/-- If all tables are through, the messages are committed and none are held. -/
theorem settle_of_complete {e : Engine δ κ} {topic : String} {source : κ}
    {outcomes : List (Outcome TableFlush)} (h : e.due topic outcomes ≠ [])
    (complete : FlushOutcomes.areComplete outcomes) :
    (e.settle topic source outcomes).1 =
      { e with
        held := e.held.erase topic
        sources := e.sources.insert topic
          (Source.commit source (Message.summary (e.due topic outcomes))).2 } := by
  simp only [due] at h ⊢
  simp [settle, commit, h, complete]

omit [Destination δ] in
/-- If a table is not through, the messages are held. -/
theorem settle_of_incomplete {e : Engine δ κ} {topic : String} {source : κ}
    {outcomes : List (Outcome TableFlush)} (h : e.due topic outcomes ≠ [])
    (incomplete : FlushOutcomes.areComplete outcomes = false) :
    (e.settle topic source outcomes).1 =
      { e with held :=
        (e.held.erase topic).insert topic (Message.summary (e.due topic outcomes)) } := by
  simp only [due] at h ⊢
  simp [settle, h, incomplete]

omit [Destination δ] in
/-- The end of a topic keeps the tables and the destination. -/
theorem settle_keeps (e : Engine δ κ) (topic : String) (source : κ)
    (outcomes : List (Outcome TableFlush)) :
    (e.settle topic source outcomes).1.registry = e.registry ∧
      (e.settle topic source outcomes).1.destination = e.destination := by
  by_cases none : e.due topic outcomes = []
  · rw [settle_of_nil none]
    exact ⟨rfl, rfl⟩
  · cases complete : FlushOutcomes.areComplete outcomes with
    | true =>
      rw [settle_of_complete none complete]
      exact ⟨rfl, rfl⟩
    | false =>
      rw [settle_of_incomplete none complete]
      exact ⟨rfl, rfl⟩

omit [Destination δ] in
/-- The end of a topic keeps the sources and the held messages of the others. -/
theorem settle_frame (e : Engine δ κ) {topic other : String} (ne : topic ≠ other)
    (source : κ) (outcomes : List (Outcome TableFlush)) :
    (e.settle other source outcomes).1.sources.get? topic = e.sources.get? topic ∧
      (e.settle other source outcomes).1.held.getD topic [] = e.held.getD topic [] := by
  have erased : (e.held.erase other).getD topic [] = e.held.getD topic [] := by
    rw [SortedMap.getD_erase, if_neg ne]
  by_cases none : e.due other outcomes = []
  · rw [settle_of_nil none]
    exact ⟨rfl, erased⟩
  · cases complete : FlushOutcomes.areComplete outcomes with
    | true =>
      rw [settle_of_complete none complete]
      exact ⟨SortedMap.get?_insert_of_ne _ _ ne, erased⟩
    | false =>
      rw [settle_of_incomplete none complete]
      refine ⟨rfl, ?_⟩
      show ((e.held.erase other).insert other _).getD topic [] = _
      rw [SortedMap.getD_insert, if_neg ne, erased]

omit [Destination δ] in
theorem settle_named_vacant {e : Engine δ κ} {topic : String} {source : κ} {t : TableId}
    (outcomes : List (Outcome TableFlush)) (h : e.registry.Named ∧ e.registry.Vacant t) :
    (e.settle topic source outcomes).1.registry.Named ∧
      (e.settle topic source outcomes).1.registry.Vacant t := by
  rwa [(settle_keeps e topic source outcomes).1]

omit [Destination δ] in
/-- The end of a topic keeps which topics have a source. -/
theorem contains_settle {e : Engine δ κ} {topic : String} {source : κ}
    (h : e.sources.get? topic = some source) (outcomes : List (Outcome TableFlush))
    (other : String) :
    (e.settle topic source outcomes).1.sources.contains other = e.sources.contains other := by
  by_cases none : e.due topic outcomes = []
  · rw [settle_of_nil none]
  · cases complete : FlushOutcomes.areComplete outcomes with
    | true =>
      rw [settle_of_complete none complete]
      exact SortedMap.contains_insert_of_get? h _ other
    | false => rw [settle_of_incomplete none complete]

theorem flushTopic_state {e : Engine δ κ} {topic : String} {source : κ}
    (h : e.sources.get? topic = some source) (tables : List TableId) (cooldown : Option Nat)
    (now : Nat) :
    (e.flushTopic topic tables cooldown now).state =
      ((e.flushTables cooldown now tables).1.settle topic source
        (e.flushTables cooldown now tables).2.1).1 := by
  simp only [flushTopic, h]

theorem flushTopic_of_stray {e : Engine δ κ} {topic : String} (h : e.sources.get? topic = none)
    (tables : List TableId) (cooldown : Option Nat) (now : Nat) :
    (e.flushTopic topic tables cooldown now).state = e := by
  simp only [flushTopic, h]

/-- The flush of a topic keeps the lists of tables. -/
theorem flushTopic_topics (e : Engine δ κ) (topic : String) (tables : List TableId)
    (cooldown : Option Nat) (now : Nat) :
    (e.flushTopic topic tables cooldown now).state.registry.topics = e.registry.topics := by
  cases h : e.sources.get? topic with
  | none => rw [flushTopic_of_stray h]
  | some source =>
    rw [flushTopic_state h, (settle_keeps _ _ _ _).1]
    exact (e.flushTables_frame cooldown now tables).1

/-! ## All topics -/

theorem flushTopics_cons (e : Engine δ κ) (cooldown : Option Nat) (now : Nat)
    (topic : String) (tables : List TableId) (rest : List (String × List TableId)) :
    (e.flushTopics cooldown now ((topic, tables) :: rest)).1 =
      ((e.flushTopic topic tables cooldown now).state.flushTopics cooldown now rest).1 := rfl

/-- What the tables of a topic end with in a flush of topics. -/
def tableOutcomes (e : Engine δ κ) (cooldown : Option Nat) (now : Nat) (topic : String) :
    List (String × List TableId) → List (Outcome TableFlush)
  | [] => []
  | (other, tables) :: rest =>
    if other = topic then (e.flushTables cooldown now tables).2.1
    else (e.flushTopic other tables cooldown now).state.tableOutcomes cooldown now topic rest

/-- What the tables of a topic end with in a flush. -/
def outcomes (e : Engine δ κ) (order : FlushOrder) (now : Nat) (topic : String) :
    List (Outcome TableFlush) :=
  match e.selection order with
  | .ok topics => e.tableOutcomes order.cooldown now topic topics
  | .error _ => []

section Induct

variable {P : Engine δ κ → Prop} (now : Nat)
  (step : ∀ {e e' : Engine δ κ} {t : TableId} {cooldown : Option Nat}
    {outcome : Outcome TableFlush}, TableStep e t cooldown now e' outcome → P e → P e')
  (settle : ∀ {e : Engine δ κ} {topic : String} {source : κ},
    e.sources.get? topic = some source → ∀ outcomes, P e → P (e.settle topic source outcomes).1)

include step settle

/-- The flush of a topic keeps what the flush of each table and the end of the topic keep. -/
theorem flushTopic_induct (topic : String) (tables : List TableId) (cooldown : Option Nat)
    (e : Engine δ κ) (h : P e) : P (e.flushTopic topic tables cooldown now).state := by
  cases hs : e.sources.get? topic with
  | none =>
    rw [flushTopic_of_stray hs]
    exact h
  | some source =>
    have sources := (e.flushTables_frame cooldown now tables).2.1
    rw [flushTopic_state hs]
    refine settle ?_ _ (flushTables_induct tables cooldown now (fun _ => step) e h)
    rw [sources]
    exact hs

theorem flushTopics_induct (topics : List (String × List TableId)) (cooldown : Option Nat)
    (e : Engine δ κ) (h : P e) : P (e.flushTopics cooldown now topics).1 := by
  induction topics generalizing e with
  | nil => exact h
  | cons first rest ih =>
    rw [flushTopics_cons]
    exact ih _ (flushTopic_induct now step settle first.1 first.2 cooldown e h)

/-- A flush keeps what the flush of each table and the end of each topic keep. -/
theorem flush_induct (e : Engine δ κ) (order : FlushOrder) (h : P e) :
    P (e.flush order now).state := by
  simp only [flush]
  cases e.selection order with
  | error f => exact h
  | ok topics => exact flushTopics_induct now step settle topics order.cooldown e h

end Induct

/-- A flush keeps which topics have a source. -/
theorem contains_flush (e : Engine δ κ) (order : FlushOrder) (now : Nat) (topic : String) :
    (e.flush order now).state.sources.contains topic = e.sources.contains topic := by
  refine flush_induct (P := fun e' => e'.sources.contains topic = e.sources.contains topic) now
    (fun step h => ?_) (fun hs outcomes h => (contains_settle hs outcomes topic).trans h) e order
    rfl
  rw [step.frame.2.1]
  exact h

/-- A flush keeps the lists of tables. -/
theorem topics_flush (e : Engine δ κ) (order : FlushOrder) (now : Nat) :
    (e.flush order now).state.registry.topics = e.registry.topics := by
  refine flush_induct (P := fun e' => e'.registry.topics = e.registry.topics) now
    (fun step h => step.frame.1.trans h) (fun _ outcomes h => ?_) e order rfl
  rw [(settle_keeps _ _ _ outcomes).1]
  exact h

/-- What was vacant stays vacant. -/
theorem vacant_flush {e : Engine δ κ} {t : TableId} (named : e.registry.Named)
    (vacant : e.registry.Vacant t) (order : FlushOrder) (now : Nat) :
    (e.flush order now).state.registry.Vacant t := by
  have kept := flush_induct (P := fun e : Engine δ κ => e.registry.Named ∧ e.registry.Vacant t) now
    TableStep.named_vacant (fun _ => settle_named_vacant) e order ⟨named, vacant⟩
  exact kept.2

/-! ## The tables that a flush takes -/

omit [Destination δ] [Source κ] in
/-- A flush takes the tables that are listed under the topics it selects. -/
theorem selection_lists {e : Engine δ κ} {order : FlushOrder}
    {topics : List (String × List TableId)} (h : e.selection order = .ok topics) :
    ∀ p ∈ topics, p.2 = e.registry.tablesOf p.1 := by
  unfold selection at h
  rintro ⟨topic, tables⟩ mem
  cases ho : order.topic with
  | none =>
    rw [ho] at h
    obtain rfl := Except.ok.inj h
    have := SortedMap.get?_eq_some_iff.2 mem
    simp [TableRegistry.tablesOf, SortedMap.getD, this]
  | some t =>
    simp only [ho] at h
    split at h
    · obtain rfl := Except.ok.inj h
      injection List.mem_singleton.1 mem with h1 h2
      rw [h1, h2]
    · cases h

omit [Destination δ] [Source κ] in
/-- A flush selects no topic twice. -/
theorem selection_nodup {e : Engine δ κ} {order : FlushOrder}
    {topics : List (String × List TableId)} (h : e.selection order = .ok topics) :
    (topics.map Prod.fst).Nodup := by
  unfold selection at h
  cases ho : order.topic with
  | none =>
    rw [ho] at h
    obtain rfl := Except.ok.inj h
    exact SortedMap.nodup_keys _
  | some t =>
    simp only [ho] at h
    split at h
    · obtain rfl := Except.ok.inj h
      exact List.pairwise_singleton _ t
    · cases h

omit [Destination δ] [Source κ] in
/-- An order that takes a topic selects it if a table is listed under it. -/
theorem selection_of_takes {e : Engine δ κ} {order : FlushOrder} {topic : String}
    (takes : order.Takes topic) (fed : e.sources.contains topic) {t : TableId}
    (listed : t ∈ e.registry.tablesOf topic) :
    ∃ topics, e.selection order = .ok topics ∧ topic ∈ topics.map Prod.fst := by
  simp only [selection]
  cases ho : order.topic with
  | none =>
    refine ⟨_, rfl, ?_⟩
    cases hl : e.registry.topics.get? topic with
    | none => simp [TableRegistry.tablesOf, SortedMap.getD, hl] at listed
    | some tables => exact List.mem_map_of_mem (SortedMap.get?_eq_some_iff.1 hl)
  | some t =>
    obtain rfl := takes t ho
    simp only [fed, if_true]
    exact ⟨_, rfl, List.mem_singleton_self t⟩

/-- If no table of a topic failed or was left alone, all of them are vacant after the flush. -/
theorem vacant_flushTopics {topics : List (String × List TableId)} {e : Engine δ κ} {topic : String}
    {t : TableId} {cooldown : Option Nat} {now : Nat} (named : e.registry.Named)
    (fed : e.sources.contains topic) (lists : ∀ p ∈ topics, p.2 = e.registry.tablesOf p.1)
    (isIn : topic ∈ topics.map Prod.fst) (listed : t ∈ e.registry.tablesOf topic)
    (complete : FlushOutcomes.areComplete (e.tableOutcomes cooldown now topic topics)) :
    (e.flushTopics cooldown now topics).1.registry.Vacant t := by
  induction topics generalizing e with
  | nil => cases isIn
  | cons first rest ih =>
    obtain ⟨other, tables⟩ := first
    rw [flushTopics_cons]
    by_cases same : other = topic
    · subst same
      obtain ⟨source, hs⟩ := Option.isSome_iff_exists.1 fed
      rw [← lists (other, tables) List.mem_cons_self] at listed
      simp only [tableOutcomes, if_true] at complete
      have flushed : (e.flushTables cooldown now tables).1.registry.Named ∧
          (e.flushTables cooldown now tables).1.registry.Vacant t := by
        refine ⟨?_, vacant_of_complete named complete t listed⟩
        exact flushTables_induct (P := fun e => e.registry.Named) tables cooldown now
          (fun _ step h => step.named h) e named
      have settled : (e.flushTopic other tables cooldown now).state.registry.Named ∧
          (e.flushTopic other tables cooldown now).state.registry.Vacant t := by
        rw [flushTopic_state hs]
        exact settle_named_vacant _ flushed
      have kept := flushTopics_induct
        (P := fun e : Engine δ κ => e.registry.Named ∧ e.registry.Vacant t) now
        TableStep.named_vacant (fun _ => settle_named_vacant) rest cooldown _ settled
      exact kept.2
    · simp only [tableOutcomes, if_neg same] at complete
      have topics' := e.flushTopic_topics other tables cooldown now
      obtain ⟨named', fed'⟩ := flushTopic_induct
        (P := fun e : Engine δ κ => e.registry.Named ∧ e.sources.contains topic) now
        (fun step h => ⟨step.named h.1, by rw [step.frame.2.1]; exact h.2⟩)
        (fun hs outcomes h => ⟨by rw [(settle_keeps _ _ _ outcomes).1]; exact h.1,
          (contains_settle hs outcomes topic).trans h.2⟩) other tables cooldown e ⟨named, fed⟩
      refine ih named' fed' ?_ ?_ ?_ complete
      · intro p mem
        simp only [TableRegistry.tablesOf]
        rw [topics']
        exact lists p (List.mem_cons_of_mem _ mem)
      · rcases List.mem_cons.1 isIn with rfl | isIn
        · exact absurd rfl same
        · exact isIn
      · simp only [TableRegistry.tablesOf]
        rw [topics']
        exact listed

/-- After a flush that takes a topic, and in which no table of the topic failed or was left alone,
the tables of the topic are vacant. -/
theorem vacant_of_outcomes {e : Engine δ κ} {order : FlushOrder} {now : Nat} {topic : String}
    {t : TableId} (named : e.registry.Named) (takes : order.Takes topic)
    (fed : e.sources.contains topic) (listed : t ∈ e.registry.tablesOf topic)
    (complete : FlushOutcomes.areComplete (e.outcomes order now topic)) :
    (e.flush order now).state.registry.Vacant t := by
  obtain ⟨topics, selected, isIn⟩ := selection_of_takes takes fed listed
  unfold outcomes at complete
  unfold flush
  simp only [selected] at complete ⊢
  exact vacant_flushTopics named fed (selection_lists selected) isIn listed complete

end Engine

end ChangeCapture
