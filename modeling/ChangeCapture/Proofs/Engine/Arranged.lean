import ChangeCapture.Proofs.Engine.Run

/-!
# Tables of one topic

The buffers of all tables stay arranged: each window stands under its table,
its messages under their partitions, and the tables that are listed under a
topic are those that its reader alone feeds (`TableRegistry.Arranged`).
-/

namespace ChangeCapture

variable {δ : Type} [Destination δ]

/-- The buffers are in order.  The tables `own` are those of the topic. -/
structure TableRegistry.Arranged (r : TableRegistry) (topic : String) (own : TableId → Prop) :
    Prop where
  /-- Every buffer stands under the name of its table. -/
  named : r.Named
  /-- Every window stands in the buffer of its table. -/
  tidy : ∀ t b w, r.get? t = some b → b.window = some w → w.tableId = t ∧ w.Tidy
  /-- The tables that are there and belong to the topic are listed under it. -/
  listed : ∀ t, t ∈ r.tablesOf topic ↔ own t ∧ ∃ b, r.get? t = some b
  /-- No other topic lists one of them. -/
  foreign : ∀ other, other ≠ topic → ∀ t ∈ r.tablesOf other, ¬ own t

/-! ## Windows -/

theorem Window.Tidy.congr {w w' : Window} (h : w.Tidy) (mode : w'.mode = w.mode)
    (keyed : w'.keyed = w.keyed) (appended : w'.appended = w.appended)
    (messages : w'.messages = w.messages) : w'.Tidy := by
  constructor
  · simp only [Window.Aligned]
    rw [messages]
    exact h.aligned
  · simp only [Window.lastMessages]
    rw [Window.isEmpty_congr mode keyed appended, messages]
    exact h.quiet

theorem Window.tidy_new (t : TableId) (name : String) (mode : Mode) (columns : ColumnRegistry)
    (keys : List String) (s : TopicSettings) :
    (Window.new t name mode columns keys s).Tidy := by
  constructor
  · intro p ms hp
    cases hp
  · intro _
    rfl

namespace RowEvent

theorem tableId_opened {e : RowEvent} {s : TopicSettings} {r : TableRegistry}
    {topic : String} {own : TableId → Prop} (h : r.Arranged topic own) :
    (e.opened s r).tableId = e.tableId := by
  rcases e.opened_cases s r with ⟨-, fresh⟩ | ⟨b, w, holds, old⟩
  · rw [fresh]
    rfl
  · rw [old]
    exact (h.tidy _ b w holds.buffer holds.window).1

theorem tidy_opened {e : RowEvent} {s : TopicSettings} {r : TableRegistry}
    {topic : String} {own : TableId → Prop} (h : r.Arranged topic own) :
    (e.opened s r).Tidy := by
  rcases e.opened_cases s r with ⟨-, fresh⟩ | ⟨b, w, holds, old⟩
  · rw [fresh]
    exact Window.tidy_new _ _ _ _ _ _
  · rw [old]
    exact (h.tidy _ b w holds.buffer holds.window).2.congr rfl rfl rfl rfl

theorem tableId_stored {e : RowEvent} {s : TopicSettings} {m : Message} {r : TableRegistry}
    {key : String} {topic : String} {own : TableId → Prop} (h : r.Arranged topic own) :
    (e.stored s m r key).tableId = e.tableId := by
  show (((e.opened s r).insert key e.savedRow e.isDelete).observe e.time).tableId = _
  rw [Window.tableId_observe, Window.tableId_insert, tableId_opened h]

/-- A message that was covered stays covered when an event is saved that comes later. -/
theorem covered_stored {e : RowEvent} {s : TopicSettings} {m x : Message} {r : TableRegistry}
    {b : TableBuffer} {w : Window} {topic : String} {own : TableId → Prop}
    (h : r.Arranged topic own) (holds : r.Holds e.tableId b w) (covered : x.Covered w.lastMessages)
    (later : x.Precedes m) (key : String) : x.Covered (e.stored s m r key).lastMessages := by
  refine Window.covered_record ?_ ?_ fun same => Int.le_of_lt (later same)
  · simp only [Window.Aligned]
    rw [Window.messages_observe, Window.messages_insert]
    exact (tidy_opened h).aligned
  · simp only [Window.lastMessages]
    rw [Window.messages_observe, Window.messages_insert, opened_of_holds holds]
    exact covered

theorem tidy_stored {e : RowEvent} {s : TopicSettings} {m : Message} {r : TableRegistry}
    {key : String} {topic : String} {own : TableId → Prop} (h : r.Arranged topic own) :
    (e.stored s m r key).Tidy := by
  constructor
  · refine Window.Aligned.record ?_ m
    simp only [Window.Aligned]
    rw [Window.messages_observe, Window.messages_insert]
    exact (tidy_opened h).aligned
  · intro empty
    rw [isEmpty_stored] at empty
    cases empty

end RowEvent

/-! ## Steps -/

namespace TableRegistry

variable {topic : String} {own : TableId → Prop}

theorem arranged_new (thresholds : Thresholds) : (new thresholds).Arranged topic own := by
  refine ⟨?_, ?_, ?_, ?_⟩
  · intro t b h
    cases h
  · intro t b w h
    cases h
  · intro t
    constructor
    · intro mem
      cases mem
    · rintro ⟨-, b, h⟩
      cases h
  · intro other _ t mem
    cases mem

theorem Arranged.putWindow {r : TableRegistry} (h : r.Arranged topic own) {t : TableId}
    {fed : String} (feeds : own t ↔ fed = topic) {w : Window} (table : w.tableId = t)
    (tidy : w.Tidy) : (r.putWindow t fed w).Arranged topic own := by
  refine ⟨h.named.putWindow t fed w, ?_, ?_, ?_⟩
  · intro t' b w' hb hw
    rw [get?_putWindow] at hb
    split at hb
    · rename_i same
      rw [← Option.some.inj hb] at hw
      rw [← Option.some.inj hw, same]
      exact ⟨table, tidy⟩
    · exact h.tidy t' b w' hb hw
  · intro t'
    rw [mem_tablesOf_putWindow, h.listed, get?_putWindow]
    by_cases same : t' = t
    · subst same
      simp only [if_true, Option.some.injEq, exists_eq', and_true]
      constructor
      · rintro (⟨o, -⟩ | ⟨-, rfl⟩)
        · exact o
        · exact feeds.2 rfl
      · intro o
        cases hb : r.get? t' with
        | none => exact .inr ⟨rfl, (feeds.1 o).symm⟩
        | some b => exact .inl ⟨o, b, rfl⟩
    · simp only [if_neg same]
      constructor
      · rintro (old | ⟨-, -, rfl⟩)
        · exact old
        · exact absurd rfl same
      · exact .inl
  · intro other ne t' mem
    rcases mem_tablesOf_putWindow.1 mem with old | ⟨-, rfl, rfl⟩
    · exact h.foreign other ne t' old
    · intro o
      exact ne (feeds.1 o)

/-- The buffer of a table may be replaced by one that is in order. -/
theorem Arranged.set {r : TableRegistry} (h : r.Arranged topic own) (b : TableBuffer)
    {old : TableBuffer} (there : r.get? b.tableId = some old)
    (tidy : ∀ w, b.window = some w → w.tableId = b.tableId ∧ w.Tidy) :
    (r.set b.tableId b).Arranged topic own := by
  refine ⟨h.named.set b, ?_, ?_, ?_⟩
  · intro t b' w hb hw
    rw [get?_set] at hb
    split at hb
    · rename_i same
      rw [← Option.some.inj hb] at hw
      rw [same]
      exact tidy w hw
    · exact h.tidy t b' w hb hw
  · intro t
    rw [tablesOf_set, h.listed, get?_set]
    split
    · rename_i same
      subst same
      simp [there]
    · exact Iff.rfl
  · intro other ne t mem
    rw [tablesOf_set] at mem
    exact h.foreign other ne t mem

end TableRegistry

namespace Engine

variable {topic : String} {own : TableId → Prop} {κ : Type}

theorem TableStep.arranged {e e' : Engine δ κ} {t : TableId} {cooldown : Option Nat} {now : Nat}
    {outcome : Outcome TableFlush} (h : TableStep e t cooldown now e' outcome)
    (arranged : e.registry.Arranged topic own) : e'.registry.Arranged topic own := by
  rcases h.replaces arranged.named with same | ⟨b, b', there, rfl, -, windows, replaced⟩
  · rwa [same]
  · rw [replaced]
    refine arranged.set b' there fun v hv => ?_
    obtain ⟨w, known, hw, rfl⟩ := windows v hv
    obtain ⟨table, tidy⟩ := arranged.tidy _ b w there hw
    exact ⟨table, tidy.congr rfl rfl rfl rfl⟩

end Engine

end ChangeCapture
