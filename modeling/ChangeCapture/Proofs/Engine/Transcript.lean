import ChangeCapture.Proofs.Engine.Endings
import ChangeCapture.Proofs.Engine.Reachable

/-!
# The calls of a flush

A flush asks the destination about tables and writes windows to it.  These calls and their
answers can be written down beside the destination, and the flush goes as before
(`Engine.flush_recorded`).  The calls about a table tell what becomes of its buffer
(`TableBuffer.Calls`), whatever else the flush comes to (`Engine.calls_flush`).  They are no more
than the attempts that are allowed (`Engine.within_flush`).
-/

namespace ChangeCapture

/-! ## Calls -/

/-- A call to a destination with its answer. -/
inductive Call where
  /-- The destination is asked about a table. -/
  | describe (p : TablePath) (answer : Outcome TableDescription)
  /-- A window is merged or appended. -/
  | write (w : Window) (answer : Outcome Bool)

namespace Call

/-- The place that a call is about. -/
def path : Call → TablePath
  | describe p _ => p
  | write w _ => w.path

/-- The table that a call is about. -/
def table (c : Call) : TableId := ⟨c.path.schema, c.path.name⟩

/-- The fault that a call is answered with. -/
def fault? : Call → Option Fault
  | describe _ (.error f) => some f
  | write _ (.error f) => some f
  | _ => none

/-- Whether the destination took the rows of a window and allowed a commit. -/
def isCommitted : Call → Bool
  | write _ (.ok true) => true
  | _ => false

/-- Whether the destination is asked. -/
def isDescribe : Call → Bool
  | describe .. => true
  | write .. => false

/-- Whether a window is written. -/
def isWrite : Call → Bool
  | describe .. => false
  | write .. => true

/-- Whether a window is written and the write does not fail. -/
def isTaken : Call → Bool
  | write _ (.ok _) => true
  | _ => false

/-- The calls about a table. -/
def about (t : TableId) (calls : List Call) : List Call := calls.filter fun c => c.table = t

/-- The fault of the last call. -/
def lastFault? (calls : List Call) : Option Fault := calls.getLast?.bind fault?

/-- Whether the last call is a write whose rows were taken and may be committed. -/
def endsCommitted (calls : List Call) : Bool := calls.getLast?.any isCommitted

/-- Tries that failed, and the last one. -/
def tries {α : Type} (call : Outcome α → Call) (failures : List Fault) (last : Outcome α) :
    List Call :=
  failures.map (fun f => call (.error f)) ++ [call last]

/-- Calls about a table that are within a number of attempts. -/
structure Within (attempts : Nat) (calls : List Call) : Prop where
  /-- The destination is asked no more often than that. -/
  asked : calls.countP isDescribe ≤ attempts
  /-- No window is written more often than that. -/
  written : calls.countP isWrite ≤ attempts
  /-- At most one write does not fail. -/
  taken : calls.countP isTaken ≤ 1

theorem about_append (t : TableId) (calls more : List Call) :
    about t (calls ++ more) = about t calls ++ about t more :=
  List.filter_append calls more

theorem about_eq_self {t : TableId} {calls : List Call} (all : ∀ c ∈ calls, c.table = t) :
    about t calls = calls :=
  List.filter_eq_self.2 fun c mem => by simpa using all c mem

theorem about_eq_nil {t t' : TableId} {calls : List Call} (all : ∀ c ∈ calls, c.table = t)
    (ne : t' ≠ t) : about t' calls = [] := by
  refine List.filter_eq_nil_iff.2 fun c mem => ?_
  simpa [all c mem] using ne.symm

section Tries

variable {α : Type} {call : Outcome α → Call} {failures : List Fault} {last : Outcome α}

theorem mem_tries {c : Call} (mem : c ∈ tries call failures last) : ∃ answer, c = call answer := by
  rcases List.mem_append.1 mem with mem | mem
  · obtain ⟨f, -, rfl⟩ := List.mem_map.1 mem
    exact ⟨_, rfl⟩
  · exact ⟨last, List.mem_singleton.1 mem⟩

@[simp]
theorem getLast?_append_tries (calls : List Call) :
    (calls ++ tries call failures last).getLast? = some (call last) := by
  rw [tries, ← List.append_assoc, List.getLast?_concat]

@[simp]
theorem getLast?_tries : (tries call failures last).getLast? = some (call last) :=
  getLast?_append_tries []

theorem countP_tries (q : Call → Bool) :
    (tries call failures last).countP q =
      failures.countP (fun f => q (call (.error f))) + if q (call last) then 1 else 0 := by
  rw [tries, List.countP_append, List.countP_map, List.countP_singleton]
  rfl

end Tries

section Within

variable {attempts : Nat} {failures failures' : List Fault}

theorem within_nil (attempts : Nat) : Within attempts [] :=
  ⟨Nat.zero_le _, Nat.zero_le _, Nat.zero_le _⟩

theorem within_describe (few : failures.length < attempts) (p : TablePath)
    (last : Outcome TableDescription) : Within attempts (tries (.describe p) failures last) where
  asked := by simpa [countP_tries, isDescribe] using Nat.succ_le_of_lt few
  written := by simp [countP_tries, isWrite]
  taken := by simp [countP_tries, isTaken]

theorem within_write (few : failures.length < attempts) (p : TablePath)
    (description : Outcome TableDescription) (few' : failures'.length < attempts) (w : Window)
    (last : Outcome Bool) :
    Within attempts (tries (.describe p) failures description ++ tries (.write w) failures' last)
    where
  asked := by
    simpa [List.countP_append, countP_tries, isDescribe] using Nat.succ_le_of_lt few
  written := by
    simpa [List.countP_append, countP_tries, isWrite] using Nat.succ_le_of_lt few'
  taken := by
    cases last <;> simp [List.countP_append, countP_tries, isTaken]

end Within

end Call

/-! ## Destinations with a transcript -/

/-- A destination with the calls to it in order. -/
structure Transcript (δ : Type) where
  /-- The destination. -/
  destination : δ
  /-- The calls to it, in order. -/
  calls : List Call

namespace Transcript

variable {δ : Type} [Destination δ]

instance : Destination (Transcript δ) where
  describe d p :=
    ((Destination.describe d.destination p).1,
      ⟨(Destination.describe d.destination p).2,
        d.calls ++ [.describe p (Destination.describe d.destination p).1]⟩)
  merge d w :=
    ((Destination.merge d.destination w).1,
      ⟨(Destination.merge d.destination w).2,
        d.calls ++ [.write w (Destination.merge d.destination w).1]⟩)
  append d w :=
    ((Destination.append d.destination w).1,
      ⟨(Destination.append d.destination w).2,
        d.calls ++ [.write w ((Destination.append d.destination w).1.map fun () => true)]⟩)

/-- A write to a transcript is a write to its destination, and it is written down. -/
theorem write_eq (d : Transcript δ) (w : Window) :
    Destination.write d w =
      ((Destination.write d.destination w).1,
        ⟨(Destination.write d.destination w).2,
          d.calls ++ [.write w (Destination.write d.destination w).1]⟩) := by
  unfold Destination.write
  cases w.mode <;> rfl

omit [Destination δ] in
/-- Tries that write down one call each.  All of them but the last fail, and they are no more than
the attempts that are allowed. -/
theorem calls_run {α : Type} (p : RetryPolicy) (op : Nat → Transcript δ → Outcome α × Transcript δ)
    (call : Outcome α → Call) (tells : ∀ n d, (op n d).2.calls = d.calls ++ [call (op n d).1])
    (d : Transcript δ) :
    ∃ failures, failures.length < p.maxAttempts ∧ (p.run op d).state.calls =
      d.calls ++ Call.tries call failures (p.run op d).outcome := by
  obtain ⟨n, least, ends⟩ := p.run_eq_first_end op d
  have before : ∀ m ≤ n, ∃ failures : List Fault, failures.length = m ∧
      (RetryPolicy.stateBefore op d m).calls =
        d.calls ++ failures.map fun f => call (.error f) := by
    intro m le
    induction m with
    | zero => exact ⟨[], rfl, (List.append_nil _).symm⟩
    | succ m ih =>
      obtain ⟨failures, count, ih⟩ := ih (by omega)
      obtain ⟨f, fails⟩ := RetryPolicy.exists_error_of_lt_isLeast least le
      have told := tells m (RetryPolicy.stateBefore op d m)
      rw [← RetryPolicy.outcomeAt, fails, ih, ← RetryPolicy.stateBefore] at told
      exact ⟨failures ++ [f], by simp [count], by simpa using told⟩
  obtain ⟨failures, count, before⟩ := before n (Nat.le_refl n)
  have told := tells n (RetryPolicy.stateBefore op d n)
  rw [before, List.append_assoc] at told
  refine ⟨failures, count ▸ RetryPolicy.lt_maxAttempts_of_isLeast least, ?_⟩
  rw [ends]
  exact told

end Transcript

/-! ## The calls about one buffer -/

/-- The calls in the flush of a buffer, and what they lead to. -/
inductive TableBuffer.Calls (b : TableBuffer) (cooldown : Option Nat) (now : Nat) :
    List Call → BufferFlush → Prop where
  /-- There is no row, or the table was flushed within the cooldown. -/
  | idle {flush : TableFlush} (start : b.startFlush cooldown now = .done flush) :
    Calls b cooldown now [] ⟨b, .ok flush, 0⟩
  /-- The destination fails to tell what it knows, each time that it is asked. -/
  | unknown {w : Window} (start : b.startFlush cooldown now = .write w) (failures : List Fault)
    (f : Fault) (paused : Nat) :
    Calls b cooldown now (Call.tries (.describe w.path) failures (.error f)) ⟨b, .error f, paused⟩
  /-- The window is written with the columns that the destination knows, until that does not fail
  or no try is left. -/
  | written {w : Window} (start : b.startFlush cooldown now = .write w) (failures : List Fault)
    (description : TableDescription) (failures' : List Fault) (answer : Outcome Bool)
    (paused paused' : Nat) :
    Calls b cooldown now
      (Call.tries (.describe w.path) failures (.ok description) ++
        Call.tries (.write (w.adopt description.columns)) failures' answer)
      (b.finish (w.adopt description.columns) now paused (answer, paused'))

namespace TableBuffer

variable {δ : Type} [Destination δ] {b : TableBuffer} {cooldown : Option Nat} {now : Nat}
  {calls : List Call} {flush : BufferFlush}

theorem place_of_startFlush {w : Window} (start : b.startFlush cooldown now = .write w) :
    b.place = w.path := by
  rw [TableBuffer.place, window_of_startFlush start]
  rfl

/-- All calls are about the place of the window. -/
theorem Calls.path (h : b.Calls cooldown now calls flush) : ∀ c ∈ calls, c.path = b.place := by
  intro c mem
  cases h with
  | idle start => cases mem
  | unknown start =>
    obtain ⟨answer, rfl⟩ := Call.mem_tries mem
    exact (place_of_startFlush start).symm
  | written start =>
    rw [place_of_startFlush start]
    rcases List.mem_append.1 mem with mem | mem
    · obtain ⟨answer, rfl⟩ := Call.mem_tries mem
      rfl
    · obtain ⟨answer, rfl⟩ := Call.mem_tries mem
      rfl

/-- The flush fails as the last call does. -/
theorem Calls.faults (h : b.Calls cooldown now calls flush) :
    FlushOutcomes.faults [flush.outcome] = (Call.lastFault? calls).toList := by
  cases h with
  | idle => rfl
  | unknown => simp [Call.lastFault?, Call.fault?, FlushOutcomes.faults]
  | written start failures description failures' answer paused paused' =>
    cases answer with
    | error f => simp [Call.lastFault?, Call.fault?, FlushOutcomes.faults, finish]
    | ok commits =>
      cases commits <;> simp [Call.lastFault?, Call.fault?, FlushOutcomes.faults, finish]

/-- The calls that the flush of a buffer makes. -/
theorem calls_flushTo (b : TableBuffer) (retry : RetryPolicy) (cooldown : Option Nat) (now : Nat)
    (d : Transcript δ) :
    ∃ calls, (b.flushTo retry cooldown now d).2.calls = d.calls ++ calls ∧
      Call.Within retry.maxAttempts calls ∧
      b.Calls cooldown now calls (b.flushTo retry cooldown now d).1 := by
  unfold flushTo
  cases start : b.startFlush cooldown now with
  | done flush => exact ⟨[], (List.append_nil _).symm, Call.within_nil _, .idle start⟩
  | write w =>
    obtain ⟨failures, few, asked⟩ := Transcript.calls_run retry
      (fun _ d => Destination.describe d w.path) (.describe w.path) (fun _ _ => rfl) d
    simp only [Tried.told]
    revert asked
    cases (retry.run (fun _ d => Destination.describe d w.path) d).outcome with
    | error f =>
      exact fun asked => ⟨_, asked, Call.within_describe few w.path _, .unknown start failures f _⟩
    | ok description =>
      intro asked
      obtain ⟨failures', few', written⟩ := Transcript.calls_run retry
        (fun _ d => Destination.write d (w.adopt description.columns))
        (.write (w.adopt description.columns)) (fun _ d => by rw [Transcript.write_eq])
        (retry.run (fun _ d => Destination.describe d w.path) d).state
      rw [asked, List.append_assoc] at written
      exact ⟨_, written, Call.within_write few w.path _ few' _ _,
        .written start failures description failures' _ _ _⟩

end TableBuffer

/-! ## The calls about many tables -/

namespace Engine

section Tables

variable {δ κ : Type} [Destination δ] {e : Engine (Transcript δ) κ}

/-- The flush of a table makes the calls about its buffer. -/
theorem calls_flushTable (apart : e.registry.Apart) (t : TableId) (cooldown : Option Nat)
    (now : Nat) :
    ∃ calls, (e.flushTable t cooldown now).state.destination.calls =
        e.destination.calls ++ calls ∧
      (∀ c ∈ calls, c.table = t) ∧ Call.Within e.retry.maxAttempts calls ∧
      FlushOutcomes.faults [(e.flushTable t cooldown now).outcome] =
        (Call.lastFault? calls).toList ∧
      ∀ b, e.registry.get? t = some b → ∃ flush, b.Calls cooldown now calls flush ∧
        (e.flushTable t cooldown now).state.registry.get? t = some flush.buffer := by
  cases hb : e.registry.get? t with
  | none =>
    rw [flushTable_of_none hb]
    refine ⟨[], (List.append_nil _).symm, List.forall_mem_nil _, Call.within_nil _, rfl,
      fun b hb' => ?_⟩
    cases hb'
  | some b =>
    obtain ⟨calls, told, few, h⟩ := b.calls_flushTo e.retry cooldown now e.destination
    rw [flushTable_of_get? hb (apart.orderly.named t b hb)]
    revert told h
    generalize b.flushTo e.retry cooldown now e.destination = flushed
    intro told h
    refine ⟨calls, told, fun c mem => ?_, few, h.faults, fun b' hb' => ?_⟩
    · rw [Call.table, h.path c mem, (apart.place hb).1, (apart.place hb).2]
    · obtain rfl := Option.some.inj hb'
      exact ⟨_, h, by rw [TableRegistry.get?_set, if_pos rfl]⟩

/-- Among the calls of the flush of different tables, those about one of them are the calls of its
flush, and the others are left alone. -/
theorem calls_flushTables (apart : e.registry.Apart) {tables : List TableId} (once : tables.Nodup)
    (cooldown : Option Nat) (now : Nat) :
    ∃ calls, (e.flushTables cooldown now tables).1.destination.calls =
        e.destination.calls ++ calls ∧
      (∀ t, Call.Within e.retry.maxAttempts (Call.about t calls)) ∧
      FlushOutcomes.faults (e.flushTables cooldown now tables).2.1 =
        tables.filterMap (fun t => Call.lastFault? (Call.about t calls)) ∧
      (∀ t ∉ tables, Call.about t calls = [] ∧
        (e.flushTables cooldown now tables).1.registry.get? t = e.registry.get? t) ∧
      ∀ t ∈ tables, ∀ b, e.registry.get? t = some b →
        ∃ flush, b.Calls cooldown now (Call.about t calls) flush ∧
          (e.flushTables cooldown now tables).1.registry.get? t = some flush.buffer := by
  induction tables generalizing e with
  | nil =>
    exact ⟨[], (List.append_nil _).symm, fun t => Call.within_nil _, rfl, fun t _ => ⟨rfl, rfl⟩,
      List.forall_mem_nil _⟩
  | cons t rest ih =>
    obtain ⟨fresh, once⟩ := List.nodup_cons.1 once
    have step := e.flushTable_step t cooldown now
    have others : ∀ t' ≠ t, (e.flushTable t cooldown now).state.registry.get? t' =
        e.registry.get? t' := fun t' => step.get?_of_ne apart.orderly.named
    obtain ⟨first, told, own, few, failed, flushed⟩ := calls_flushTable apart t cooldown now
    obtain ⟨more, told', few', failed', left, taken⟩ := ih (step.apart apart) once
    have here : Call.about t (first ++ more) = first := by
      rw [Call.about_append, Call.about_eq_self own, (left t fresh).1, List.append_nil]
    have there : ∀ t' ≠ t, Call.about t' (first ++ more) = Call.about t' more := fun t' ne => by
      rw [Call.about_append, Call.about_eq_nil own ne, List.nil_append]
    have ne : ∀ t' ∈ rest, t' ≠ t := fun t' mem same => fresh (same ▸ mem)
    rw [flushTables_cons, flushTables_outcomes_cons]
    refine ⟨first ++ more, ?_, fun t' => ?_, ?_, fun t' mem => ?_, fun t' mem b hb => ?_⟩
    · rw [told', told, List.append_assoc]
    · by_cases same : t' = t
      · rwa [same, here]
      · rw [there t' same, ← step.retry_eq]
        exact few' t'
    · have same : rest.filterMap (fun t' => Call.lastFault? (Call.about t' (first ++ more))) =
          rest.filterMap fun t' => Call.lastFault? (Call.about t' more) :=
        List.filterMap_congr fun t' mem => by rw [there t' (ne t' mem)]
      rw [FlushOutcomes.faults_cons, failed, failed', List.filterMap_cons, here, same]
      cases Call.lastFault? first <;> rfl
    · rw [List.mem_cons, not_or] at mem
      rw [there t' mem.1, (left t' mem.2).2, others t' mem.1]
      exact ⟨(left t' mem.2).1, rfl⟩
    · rcases List.mem_cons.1 mem with rfl | mem
      · obtain ⟨flush, h, kept⟩ := flushed b hb
        rw [here, (left t' fresh).2]
        exact ⟨flush, h, kept⟩
      · rw [there t' (ne t' mem)]
        exact taken t' mem b ((others t' (ne t' mem)).trans hb)

end Tables

/-! ## The calls of a flush -/

section Recorded

variable {δ κ : Type} [Destination δ]

/-- The engine with a transcript that is empty so far. -/
def recorded (e : Engine δ κ) : Engine (Transcript δ) κ :=
  ⟨e.registry, ⟨e.destination, []⟩, e.sources, e.held, e.retry⟩

/-- The engine without the transcript. -/
def unrecorded (e : Engine (Transcript δ) κ) : Engine δ κ :=
  ⟨e.registry, e.destination.destination, e.sources, e.held, e.retry⟩

variable (e : Engine (Transcript δ) κ) (cooldown : Option Nat) (now : Nat)

theorem flushTable_unrecorded (t : TableId) :
    e.unrecorded.flushTable t cooldown now =
      ⟨(e.flushTable t cooldown now).state.unrecorded, (e.flushTable t cooldown now).outcome,
        (e.flushTable t cooldown now).paused⟩ := by
  have same : e.unrecorded.registry = e.registry := rfl
  simp only [flushTable, same]
  cases e.registry.get? t with
  | none => rfl
  | some b =>
    simp only
    cases b.startFlush cooldown now with
    | done flush => rfl
    | write w =>
      have described := e.retry.run_map (fun _ d => Destination.describe d w.path)
        (fun _ d => Destination.describe d w.path) Transcript.destination (fun _ _ => rfl)
        e.destination
      have written := fun (v : Window) (d : Transcript δ) =>
        e.retry.run_map (fun _ d => Destination.write d v) (fun _ d => Destination.write d v)
          Transcript.destination (fun _ d => by rw [Transcript.write_eq d v]) d
      simp only [writeWindow, unrecorded, described]
      cases (e.retry.run (fun _ d => Destination.describe d w.path) e.destination).outcome with
      | error f => rfl
      | ok description =>
        simp only [written]
        cases (e.retry.run (fun _ d => Destination.write d (w.adopt description.columns))
          (e.retry.run (fun _ d => Destination.describe d w.path) e.destination).state).outcome with
        | error f => rfl
        | ok commits => cases commits <;> rfl

theorem flushTables_unrecorded (tables : List TableId) :
    e.unrecorded.flushTables cooldown now tables =
      ((e.flushTables cooldown now tables).1.unrecorded,
        (e.flushTables cooldown now tables).2) := by
  induction tables generalizing e with
  | nil => rfl
  | cons t rest ih => simp only [flushTables, flushTable_unrecorded, ih]

variable [Source κ]

omit [Destination δ] in
theorem settle_unrecorded (topic : String) (source : κ) (outcomes : List (Outcome TableFlush)) :
    e.unrecorded.settle topic source outcomes =
      ((e.settle topic source outcomes).1.unrecorded, (e.settle topic source outcomes).2) := by
  cases none : (FlushOutcomes.messages outcomes ++ e.held.getD topic []).isEmpty with
  | true => simp [settle, unrecorded, none]
  | false =>
    cases complete : FlushOutcomes.areComplete outcomes <;>
      simp [settle, unrecorded, commit, none, complete]

theorem flushTopic_unrecorded (topic : String) (tables : List TableId) :
    e.unrecorded.flushTopic topic tables cooldown now =
      ⟨(e.flushTopic topic tables cooldown now).state.unrecorded,
        (e.flushTopic topic tables cooldown now).outcome,
        (e.flushTopic topic tables cooldown now).paused⟩ := by
  have same : e.unrecorded.sources = e.sources := rfl
  simp only [flushTopic, same]
  cases e.sources.get? topic with
  | none => rfl
  | some source => simp only [flushTables_unrecorded, settle_unrecorded]

theorem flushTopics_unrecorded (topics : List (String × List TableId)) :
    e.unrecorded.flushTopics cooldown now topics =
      ((e.flushTopics cooldown now topics).1.unrecorded,
        (e.flushTopics cooldown now topics).2) := by
  induction topics generalizing e with
  | nil => rfl
  | cons first rest ih => simp only [flushTopics, flushTopic_unrecorded, ih]

/-- Writing down the calls changes nothing about a flush. -/
theorem flush_unrecorded (order : FlushOrder) :
    e.unrecorded.flush order now =
      ⟨(e.flush order now).state.unrecorded, (e.flush order now).outcome,
        (e.flush order now).paused⟩ := by
  have same : e.unrecorded.selection order = e.selection order := rfl
  simp only [flush, same]
  cases e.selection order with
  | error f => rfl
  | ok topics => simp only [flushTopics_unrecorded]

end Recorded

section Flush

variable {δ κ : Type} [Destination δ] [Source κ] {e : Engine δ κ}

/-- The calls of a flush, in order. -/
def calls (e : Engine δ κ) (order : FlushOrder) (now : Nat) : List Call :=
  (e.recorded.flush order now).state.destination.calls

/-- The tables that a flush comes to. -/
def reached (e : Engine δ κ) (order : FlushOrder) : List TableId :=
  match e.selection order with
  | .ok topics => e.taken topics
  | .error _ => []

theorem flush_recorded (e : Engine δ κ) (order : FlushOrder) (now : Nat) :
    e.flush order now =
      ⟨(e.recorded.flush order now).state.unrecorded, (e.recorded.flush order now).outcome,
        (e.recorded.flush order now).paused⟩ :=
  e.recorded.flush_unrecorded now order

/-- A flush does to the buffers and to the destination what the flush of the tables does that it
comes to. -/
theorem flush_reached (e : Engine δ κ) (order : FlushOrder) (now : Nat) :
    (e.flush order now).state.registry =
        (e.flushTables order.cooldown now (e.reached order)).1.registry ∧
      (e.flush order now).state.destination =
        (e.flushTables order.cooldown now (e.reached order)).1.destination := by
  simp only [flush, reached]
  cases e.selection order with
  | error f => exact ⟨rfl, rfl⟩
  | ok topics =>
    obtain ⟨registry, destination, -⟩ := e.flushTopics_tables order.cooldown now topics
    exact ⟨registry, destination⟩

omit [Destination δ] [Source κ] in
theorem nodup_reached (orderly : e.registry.Orderly) (order : FlushOrder) :
    (e.reached order).Nodup := by
  unfold reached
  cases selected : e.selection order with
  | error f => exact List.nodup_nil
  | ok topics => exact nodup_taken orderly (lists_selection orderly selected)

/-- The calls of a flush are those of the flush of the tables that it comes to. -/
theorem calls_eq (e : Engine δ κ) (order : FlushOrder) (now : Nat) :
    e.calls order now =
      (e.recorded.flushTables order.cooldown now (e.reached order)).1.destination.calls :=
  congrArg Transcript.calls (e.recorded.flush_reached order now).2

/-- In a reachable state, the calls of a flush about a table that it comes to are those about its
buffer, and the table fails as the last of them does.  There are no calls about the other tables,
and their buffers stay as they are. -/
theorem calls_flush (h : e.Reachable) (order : FlushOrder) (now : Nat) :
    FlushOutcomes.faults (e.flushTables order.cooldown now (e.reached order)).2.1 =
        (e.reached order).filterMap
          (fun t => Call.lastFault? (Call.about t (e.calls order now))) ∧
      (∀ t ∉ e.reached order, Call.about t (e.calls order now) = [] ∧
        (e.flush order now).state.registry.get? t = e.registry.get? t) ∧
      ∀ t ∈ e.reached order, ∀ b, e.registry.get? t = some b →
        ∃ flush, b.Calls order.cooldown now (Call.about t (e.calls order now)) flush ∧
          (e.flush order now).state.registry.get? t = some flush.buffer := by
  have apart : e.recorded.registry.Apart := h.apart
  obtain ⟨calls, told, -, faults, left, taken⟩ := calls_flushTables apart
    (nodup_reached h.apart.orderly order) order.cooldown now
  have plain := e.recorded.flushTables_unrecorded order.cooldown now (e.reached order)
  have told : e.calls order now = calls := (e.calls_eq order now).trans told
  have registry : (e.flush order now).state.registry =
      (e.recorded.flushTables order.cooldown now (e.reached order)).1.registry := by
    rw [flush_recorded]
    exact (e.recorded.flush_reached order now).1
  have faults' : FlushOutcomes.faults (e.flushTables order.cooldown now (e.reached order)).2.1 =
      FlushOutcomes.faults (e.recorded.flushTables order.cooldown now (e.reached order)).2.1 :=
    congrArg (fun flushed => FlushOutcomes.faults flushed.2.1) plain
  rw [told, registry, faults']
  exact ⟨faults, left, taken⟩

/-- In a reachable state, the calls of a flush about a table are within the number of attempts. -/
theorem within_flush (h : e.Reachable) (order : FlushOrder) (now : Nat) (t : TableId) :
    Call.Within e.retry.maxAttempts (Call.about t (e.calls order now)) := by
  have apart : e.recorded.registry.Apart := h.apart
  obtain ⟨calls, told, few, -⟩ := calls_flushTables apart
    (nodup_reached h.apart.orderly order) order.cooldown now
  have told : e.calls order now = calls := (e.calls_eq order now).trans told
  rw [told]
  exact few t

end Flush

end Engine

end ChangeCapture
