import ChangeCapture.Proofs.Engine.Flush
import ChangeCapture.Proofs.RowEvent.Saving
import ChangeCapture.Trial.Sample
import ChangeCapture.Trial.Store

/-!
# Bounded buffers

A reader flushes its topic at once when a row that it saved brings a table to a
threshold (`Engine.serve`).  If these flushes go through, then between two steps
every table of the topic has fewer rows and bytes than the thresholds
(`Engine.bounded_of_duties`), whatever else is saved, refused or swept.

One saved row may bring its table to a threshold, but its window has rows then,
so the flush that follows takes it.
-/

namespace ChangeCapture

/-! ## Windows below the thresholds -/

/-- The thresholds let a table have at least one row that is not flushed at once. -/
structure Thresholds.Positive (t : Thresholds) : Prop where
  /-- The greatest number of rows is not zero. -/
  rows : 0 < t.bufferRows
  /-- The greatest size is not zero. -/
  size : 0 < t.flushSizeKb

theorem Thresholds.Positive.flushBytes {t : Thresholds} (h : t.Positive) : 0 < t.flushBytes := by
  have := h.size
  have : 0 < Row.maxBytes := by decide
  simp only [Thresholds.flushBytes]
  omega

namespace Window

/-- A window has fewer rows and bytes than lead to a flush at once. -/
structure Below (w : Window) (t : Thresholds) : Prop where
  /-- It has fewer rows. -/
  rows : w.rowCount < t.bufferRows
  /-- It has fewer bytes. -/
  bytes : w.byteSize < t.flushBytes

variable {w : Window} {t : Thresholds}

theorem flushReason?_eq_none_iff : w.flushReason? t = none ↔ w.Below t := by
  simp only [flushReason?]
  constructor
  · intro none
    split at none
    · cases none
    · split at none
      · cases none
      · exact ⟨by omega, by omega⟩
  · rintro ⟨rows, bytes⟩
    rw [if_neg (by omega), if_neg (by omega)]

theorem Below.adopt (h : w.Below t) (known : ColumnRegistry) : (w.adopt known).Below t :=
  ⟨h.rows, h.bytes⟩

/-- A window before its first row is below all thresholds. -/
theorem below_new (positive : t.Positive) (tableId : TableId) (name : String) (mode : Mode)
    (columns : ColumnRegistry) (primaryKeys : List String) (s : TopicSettings) :
    (Window.new tableId name mode columns primaryKeys s).Below t := by
  have empty : (Window.new tableId name mode columns primaryKeys s).rowCount = 0 := by
    cases mode <;> rfl
  exact ⟨empty ▸ positive.rows, positive.flushBytes⟩

end Window

/-! ## The windows of a topic -/

namespace TableRegistry

/-- Something holds of every window of the tables of a topic. -/
def Windows (r : TableRegistry) (topic : String) (P : Window → Prop) : Prop :=
  ∀ t ∈ r.tablesOf topic, ∀ b w, r.get? t = some b → b.window = some w → P w

variable {r : TableRegistry} {topic : String} {P : Window → Prop}

theorem Windows.mono {Q : Window → Prop} (h : r.Windows topic P) (imp : ∀ w, P w → Q w) :
    r.Windows topic Q :=
  fun t mem b w hb hw => imp w (h t mem b w hb hw)

/-- A window that is put into a table of the topic is the only one that is new. -/
theorem Windows.putWindow (h : r.Windows topic P) (t : TableId) (fed : String) {w : Window}
    (here : t ∈ (r.putWindow t fed w).tablesOf topic → P w) :
    (r.putWindow t fed w).Windows topic P := by
  intro t' mem b v hb hv
  rw [get?_putWindow] at hb
  split at hb
  · rename_i same
    subst same
    obtain rfl := Option.some.inj hb
    obtain rfl := Option.some.inj hv
    exact here mem
  · rename_i ne
    rcases mem_tablesOf_putWindow.1 mem with mem | ⟨-, -, same⟩
    · exact h t' mem b v hb hv
    · exact absurd same ne

/-- A window that is in no vacant table has rows, so it holds of none if the tables are vacant. -/
theorem Windows.of_vacant (h : r.Windows topic fun w => P w ∨ w.isEmpty = false)
    (vacant : ∀ t ∈ r.tablesOf topic, r.Vacant t) : r.Windows topic P := by
  intro t mem b w hb hw
  rcases h t mem b w hb hw with holds | filled
  · exact holds
  · exact absurd ⟨hb, hw, filled⟩ (vacant t mem).not_holds

theorem thresholds_putWindow (r : TableRegistry) (t : TableId) (fed : String) (w : Window) :
    (r.putWindow t fed w).thresholds = r.thresholds :=
  RowEvent.thresholds_register r t fed

end TableRegistry

namespace RowEvent

variable {e : RowEvent} {s : TopicSettings} {r : TableRegistry} {topic : String}

/-- The window that an event is saved into is below the thresholds if that of its table is. -/
theorem below_opened {t : Thresholds} (positive : t.Positive)
    (below : ∀ b w, r.Holds e.tableId b w → w.Below t) : (e.opened s r).Below t := by
  rcases e.opened_cases s r with ⟨-, fresh⟩ | ⟨b, w, holds, old⟩
  · rw [fresh]
    exact Window.below_new positive _ _ _ _ _ _
  · rw [old]
    exact ⟨(below b w holds).rows, (below b w holds).bytes⟩

/-- Only an event that is saved and asks for a flush brings a window of the topic to the
thresholds.  That window has rows, and its table was listed under the topic before, or the topic
fed it. -/
theorem SaveStep.windows {m : Message} {r' : TableRegistry}
    {outcome : Outcome (Option FlushReason)} (step : e.SaveStep s m r r' outcome)
    (positive : r.thresholds.Positive) (h : r.Windows topic (Window.Below · r.thresholds)) :
    r'.Windows topic (Window.Below · r.thresholds) ∨
      (e.tableId ∈ r.tablesOf topic ∨ s.topic = topic) ∧
        (∃ reason, outcome = .ok (some reason)) ∧
        r'.Windows topic fun w => w.Below r.thresholds ∨ w.isEmpty = false := by
  cases step with
  | invalid => exact .inl h
  | refused =>
    refine .inl (h.putWindow _ _ fun mem => below_opened positive fun b w holds => ?_)
    rcases TableRegistry.mem_tablesOf_putWindow.1 mem with mem | ⟨new, -⟩
    · exact h _ mem b w holds.buffer holds.window
    · cases new.symm.trans holds.buffer
  | @saved key =>
    by_cases listed : e.tableId ∈
        (r.putWindow e.tableId s.topic (e.stored s m r key)).tablesOf topic
    · cases reason : (e.stored s m r key).flushReason? r.thresholds with
      | none => exact .inl (h.putWindow _ _ fun _ => Window.flushReason?_eq_none_iff.1 reason)
      | some flushReason =>
        refine .inr ⟨?_, ⟨flushReason, rfl⟩, ?_⟩
        · exact (TableRegistry.mem_tablesOf_putWindow.1 listed).imp_right fun new => new.2.1.symm
        · exact (h.mono fun w => Or.inl).putWindow _ _ fun _ => .inr (isEmpty_stored e s m r key)
    · exact .inl (h.putWindow _ _ fun mem => absurd mem listed)

theorem SaveStep.thresholds {m : Message} {r' : TableRegistry}
    {outcome : Outcome (Option FlushReason)} (step : e.SaveStep s m r r' outcome) :
    r'.thresholds = r.thresholds := by
  cases step with
  | invalid => rfl
  | refused => exact r.thresholds_putWindow _ _ _
  | saved => exact r.thresholds_putWindow _ _ _

theorem SaveStep.named {m : Message} {r' : TableRegistry}
    {outcome : Outcome (Option FlushReason)} (step : e.SaveStep s m r r' outcome)
    (named : r.Named) : r'.Named := by
  cases step with
  | invalid => exact named
  | refused => exact named.putWindow _ _ _
  | saved => exact named.putWindow _ _ _

end RowEvent

/-! ## Readers that flush their topics -/

namespace Engine

variable {δ κ : Type} [Source κ]

/-- The reader of a topic takes in the next message, if there is one. -/
def intake (e : Engine δ κ) (s : TopicSettings) (mode : Mode) (now : Instant) :
    Engine δ κ × Outcome (Option FlushReason) :=
  match e.read s.topic with
  | (e, some (.ok (.message m))) => e.ingest s mode now m
  | (e, some (.error f)) => (e, .error f)
  | (e, _) => (e, .ok none)

theorem registry_read (e : Engine δ κ) (topic : String) :
    (e.read topic).1.registry = e.registry := by
  unfold Engine.read
  split <;> rfl

/-- An intake reads, and then it takes in the message that was read or asks for no flush. -/
theorem intake_cases (e : Engine δ κ) (s : TopicSettings) (mode : Mode) (now : Instant) :
    ((e.intake s mode now).1 = (e.read s.topic).1 ∧
        ∀ reason, (e.intake s mode now).2 ≠ .ok (some reason)) ∨
      ∃ m, (e.read s.topic).2 = some (.ok (.message m)) ∧
        e.intake s mode now = (e.read s.topic).1.ingest s mode now m := by
  unfold intake
  split
  · rename_i e' m found
    rw [found]
    exact .inr ⟨m, rfl, rfl⟩
  · rename_i found
    rw [found]
    exact .inl ⟨rfl, nofun⟩
  · rename_i found
    rw [found]
    exact .inl ⟨rfl, nofun⟩

/-- The reader of a topic takes in the next message, and flushes the topic if it must be flushed
now. -/
def serve [Destination δ] (e : Engine δ κ) (s : TopicSettings) (mode : Mode) (now : Instant)
    (clock : Nat) : Engine δ κ :=
  match e.intake s mode now with
  | (e, .ok (some reason)) => (e.flush (.immediate s.topic reason) clock).state
  | (e, _) => e

/-- The tables of a topic are fed by its own reader only, as far as the next message of a reader
goes. -/
def FedBy (e : Engine δ κ) (topic : String) (s : TopicSettings) (mode : Mode) (now : Instant) :
    Prop :=
  ∀ m event, (e.read s.topic).2 = some (.ok (.message m)) →
    RowEvent.ofMessage s mode now m = .ok (some event) →
      event.tableId ∈ e.registry.tablesOf topic → s.topic = topic

/-- In the flush that follows an intake no write of a table of the topic fails or is denied a
commit. -/
def Obliged [Destination δ] (e : Engine δ κ) (s : TopicSettings) (mode : Mode) (now : Instant)
    (clock : Nat) : Prop :=
  ∀ reason, (e.intake s mode now).2 = .ok (some reason) →
    FlushOutcomes.areComplete
      ((e.intake s mode now).1.outcomes (.immediate s.topic reason) clock s.topic)

instance [Destination δ] (e : Engine δ κ) (s : TopicSettings) (mode : Mode) (now : Instant)
    (clock : Nat) : Decidable (e.Obliged s mode now clock) :=
  match h : (e.intake s mode now).2 with
  | .ok (some reason) =>
    decidable_of_iff (FlushOutcomes.areComplete
      ((e.intake s mode now).1.outcomes (.immediate s.topic reason) clock s.topic) = true)
      (by simp [Obliged, h])
  | .ok none => .isTrue (by simp [Obliged, h])
  | .error f => .isTrue (by simp [Obliged, h])

/-- Something holds of every window of the tables of a topic, and the thresholds are these. -/
structure Limits (topic : String) (thresholds : Thresholds) (P : Window → Prop)
    (e : Engine δ κ) : Prop where
  /-- Every buffer stands under the name of its table. -/
  named : e.registry.Named
  /-- The thresholds are these. -/
  thresholds : e.registry.thresholds = thresholds
  /-- It holds of every window. -/
  windows : e.registry.Windows topic P

namespace Limits

variable {topic : String} {thresholds : Thresholds} {P : Window → Prop} {e e' : Engine δ κ}

omit [Source κ] in
theorem congr (h : e.Limits topic thresholds P) (same : e'.registry = e.registry) :
    e'.Limits topic thresholds P :=
  ⟨same ▸ h.named, same ▸ h.thresholds, same ▸ h.windows⟩

variable [Destination δ]

omit [Source κ] in
/-- The flush of a table at most matches columns, and drops the window. -/
theorem tableStep (adopt : ∀ w known, P w → P (w.adopt known)) {t : TableId}
    {cooldown : Option Nat} {now : Nat} {outcome : Outcome TableFlush}
    (step : TableStep e t cooldown now e' outcome) (h : e.Limits topic thresholds P) :
    e'.Limits topic thresholds P := by
  rcases step.replaces h.named with same | ⟨b, b', there, -, -, window, replaced⟩
  · exact h.congr same
  · refine ⟨step.named h.named, by rw [replaced]; exact h.thresholds, ?_⟩
    intro t' mem b'' w hb hw
    rw [replaced, TableRegistry.get?_set] at hb
    rw [replaced, TableRegistry.tablesOf_set] at mem
    split at hb
    · rename_i same
      subst same
      obtain rfl := Option.some.inj hb
      obtain ⟨w', known, hw', rfl⟩ := window w hw
      exact adopt w' known (h.windows t' mem b w' there hw')
    · exact h.windows t' mem b'' w hb hw

theorem flush (adopt : ∀ w known, P w → P (w.adopt known)) (h : e.Limits topic thresholds P)
    (order : FlushOrder) (now : Nat) : (e.flush order now).state.Limits topic thresholds P :=
  flush_induct now (fun step => tableStep adopt step)
    (fun _ outcomes h => h.congr (settle_keeps _ _ _ outcomes).1) e order h

omit [Destination δ] in
/-- An intake leaves the windows below the thresholds.  Or the reader is that of the topic, asks
for a flush, and has brought a window with rows to a threshold. -/
theorem intake (h : e.Limits topic thresholds (Window.Below · thresholds))
    (positive : thresholds.Positive) {s : TopicSettings} {mode : Mode} {now : Instant}
    (feeds : e.FedBy topic s mode now) :
    (e.intake s mode now).1.Limits topic thresholds (Window.Below · thresholds) ∨
      s.topic = topic ∧ (∃ reason, (e.intake s mode now).2 = .ok (some reason)) ∧
        (e.intake s mode now).1.Limits topic thresholds
          fun w => w.Below thresholds ∨ w.isEmpty = false := by
  have read : (e.read s.topic).1.Limits topic thresholds (Window.Below · thresholds) :=
    h.congr (e.registry_read s.topic)
  rcases e.intake_cases s mode now with ⟨same, -⟩ | ⟨m, found, same⟩
  · rw [same]
    exact .inl read
  · rw [same]
    simp only [ingest, TableRegistry.ingest]
    cases shaped : RowEvent.ofMessage s mode now m with
    | error f => exact .inl read
    | ok event? =>
      cases event? with
      | none => exact .inl read
      | some event =>
        have step := event.save_step s m (e.read s.topic).1.registry
        have named := step.named read.named
        have kept := step.thresholds.trans read.thresholds
        have below : (e.read s.topic).1.registry.Windows topic
            (Window.Below · (e.read s.topic).1.registry.thresholds) :=
          read.thresholds ▸ read.windows
        have windows := step.windows (read.thresholds ▸ positive) below
        rw [read.thresholds] at windows
        rcases windows with below | ⟨listed, reason, loaded⟩
        · exact .inl ⟨named, kept, below⟩
        · refine .inr ⟨?_, reason, named, kept, loaded⟩
          refine listed.elim (fun mem => feeds m event found shaped ?_) id
          rwa [e.registry_read s.topic] at mem

end Limits

/-! ## Runs -/

variable [Destination δ] {topic : String} {thresholds : Thresholds} {e e' : Engine δ κ}

omit [Destination δ] in
/-- A reader that asks for a flush has found a source. -/
theorem contains_intake {s : TopicSettings} {mode : Mode} {now : Instant} {reason : FlushReason}
    (h : (e.intake s mode now).2 = .ok (some reason)) :
    (e.intake s mode now).1.sources.contains s.topic := by
  rcases e.intake_cases s mode now with ⟨-, silent⟩ | ⟨m, found, same⟩
  · exact absurd h (silent reason)
  · rw [same]
    show (e.read s.topic).1.sources.contains s.topic
    unfold Engine.read at found ⊢
    cases source : e.sources.get? s.topic with
    | none => simp [source] at found
    | some q =>
      show (e.sources.insert s.topic (Source.read q).2).contains s.topic
      rw [SortedMap.contains, SortedMap.get?_insert_self]
      rfl

/-- A reader that flushes its topic at once leaves the windows of the topic below the thresholds,
since the flush takes all tables of the topic. -/
theorem Limits.serve (h : e.Limits topic thresholds (Window.Below · thresholds))
    (positive : thresholds.Positive) {s : TopicSettings} {mode : Mode} {now : Instant}
    {clock : Nat} (feeds : e.FedBy topic s mode now)
    (obliged : s.topic = topic → e.Obliged s mode now clock) :
    (e.serve s mode now clock).Limits topic thresholds (Window.Below · thresholds) := by
  have taken := h.intake positive feeds
  have fed : ∀ reason, (e.intake s mode now).2 = .ok (some reason) →
      (e.intake s mode now).1.sources.contains s.topic := fun reason => contains_intake
  unfold Obliged at obliged
  unfold Engine.serve
  revert taken fed obliged
  generalize e.intake s mode now = result
  obtain ⟨e₁, outcome⟩ := result
  intro obliged taken fed
  rcases taken with below | ⟨rfl, ⟨reason, rfl⟩, loaded⟩
  · split
    · rename_i e₂ reason found
      obtain ⟨rfl, -⟩ := Prod.mk.inj found
      exact below.flush (fun w known below => below.adopt known) _ _
    · rename_i e₂ other _ found
      obtain ⟨rfl, -⟩ := Prod.mk.inj found
      exact below
  · have flushed := loaded.flush (fun w known loaded => loaded.imp_left (·.adopt known))
      (.immediate s.topic reason) clock
    refine ⟨flushed.named, flushed.thresholds, flushed.windows.of_vacant fun t listed => ?_⟩
    have listed : t ∈ e₁.registry.tablesOf s.topic := by
      unfold TableRegistry.tablesOf at listed ⊢
      rwa [topics_flush] at listed
    exact vacant_of_outcomes loaded.named (fun t same => (Option.some.inj same).symm)
      (fed reason rfl) listed (obliged rfl reason rfl)

end Engine

end ChangeCapture
