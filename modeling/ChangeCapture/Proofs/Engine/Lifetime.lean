import ChangeCapture.Proofs.Engine.Removal
import ChangeCapture.Proofs.RowEvent.Described
import ChangeCapture.Proofs.RowEvent.Refused
import ChangeCapture.Proofs.Store.Schema
import ChangeCapture.Trial.Store

/-!
# The columns of a window while it lasts

A window of a table starts at a save that finds no row in the buffer of the table,
and it ends when a flush wipes the buffer.  While it lasts its columns describe
its rows and never go back: columns are added behind the others, marks stay, and
a kind that was set changes only where a flush finds another one in the store
(`Engine.keeps_columns`).

What happens to the tables is a list of acts.  An act keeps every window described
and every stored table regular (`Engine.Orderly.act`), and it does no more to the
columns of a window than that (`Engine.keeps_act`).  A whole flush and the intake of
a message are acts one after the other (`Engine.flush_eq_acts`,
`Engine.ingest_eq_acts`).
-/

namespace ChangeCapture

open Destination (Probes Tells)

/-! ## The window of a table -/

namespace TableRegistry

variable {r : TableRegistry} {t : TableId} {topic : String}

/-- The window of a table. -/
def window? (r : TableRegistry) (t : TableId) : Option Window :=
  (r.get? t).bind TableBuffer.window

theorem window?_of_get? {b : TableBuffer} (h : r.get? t = some b) : r.window? t = b.window := by
  rw [window?, h, Option.bind_some]

theorem window?_set (r : TableRegistry) (t t' : TableId) (b : TableBuffer) :
    (r.set t b).window? t' = if t' = t then b.window else r.window? t' := by
  unfold window?
  rw [get?_set]
  split <;> rfl

theorem window?_putWindow (r : TableRegistry) (t t' : TableId) (topic : String) (w : Window) :
    (r.putWindow t topic w).window? t' = if t' = t then some w else r.window? t' := by
  unfold window?
  rw [get?_putWindow]
  split <;> rfl

theorem window_getOrNew (r : TableRegistry) (t : TableId) (topic : String) :
    (r.getOrNew t topic).window = r.window? t := by
  cases hb : r.get? t with
  | none =>
    rw [getOrNew_of_none topic hb, window?, hb]
    rfl
  | some b => rw [getOrNew_of_get? topic hb, window?_of_get? hb]

theorem vacant_of_getOrNew (h : (r.getOrNew t topic).isEmpty) : r.Vacant t := by
  intro b hb
  rwa [getOrNew_of_get? topic hb] at h

theorem Holds.window? {b : TableBuffer} {w : Window} (h : r.Holds t b w) :
    r.window? t = some w := by
  rw [window?_of_get? h.buffer, h.window]

end TableRegistry

/-! ## Orderly engines -/

namespace TrialStore

/-- A window that is written without a failure is a write of the store. -/
theorem write_of_ok {d d' : TrialStore} {w : Window} {commits : Bool}
    (columns : w.columns.WellFormed) (h : Destination.write d w = (.ok commits, d')) :
    d.store.Write d'.store := by
  rcases write_cases h with ⟨⟨f, hf⟩, -⟩ | ⟨-, written⟩
  · cases hf
  · cases mode : w.mode with
    | replication =>
      rw [mode] at written
      rw [written]
      exact .merge w columns
    | history =>
      rw [mode] at written
      have appended : (Destination.append d.store w).2 = d'.store := by
        simp only [Destination.append, written]
      rw [← appended]
      exact .append w columns

end TrialStore

namespace Engine

variable {κ : Type} {e e' : Engine TrialStore κ} {t : TableId}

/-- Every buffer stands under the name of its table, the columns of every window describe its
rows, and every stored table is regular. -/
structure Orderly (e : Engine TrialStore κ) : Prop where
  /-- Every buffer stands under the name of its table. -/
  named : e.registry.Named
  /-- The columns of every window describe its rows. -/
  windows : ∀ t w, e.registry.window? t = some w → w.Described
  /-- Every stored table is regular. -/
  tables : ∀ p, (e.destination.store.table p).Regular

theorem orderly_new (thresholds : Thresholds) (limit : Nat) (sources : SortedMap String κ)
    (retry : RetryPolicy) :
    (new thresholds (TrialStore.new (.new limit)) sources retry).Orderly where
  named := by
    intro t b none
    cases none
  windows := by
    intro t w none
    cases none
  tables := fun _ => StoredTable.regular_empty

namespace Orderly

/-- The window that an event is saved into is described. -/
theorem windowFor (h : e.Orderly) {event : RowEvent} (declared : event.declared.WellFormed)
    (s : TopicSettings) :
    (event.windowFor s (e.registry.getOrNew event.tableId s.topic)).Described := by
  rcases event.windowFor_cases s (e.registry.getOrNew event.tableId s.topic) with
    ⟨-, fresh⟩ | ⟨w, hw, -, old⟩
  · rw [fresh]
    exact Window.described_new _ _ _ declared _ _
  · rw [TableRegistry.window_getOrNew] at hw
    rw [old]
    exact (h.windows _ w hw).keeps
      (ColumnRegistry.keeps_addAll (K := fun _ _ => False) w.columns _)

theorem save (h : e.Orderly) {event : RowEvent} (declared : event.declared.WellFormed)
    (s : TopicSettings) (m : Message) (entries : List (String × Json)) :
    ({ e with registry := (event.saveInOrder s m entries e.registry).1 } :
      Engine TrialStore κ).Orderly := by
  cases valid : event.validate with
  | error f =>
    rw [RowEvent.saveInOrder_invalid s m entries e.registry valid]
    exact h
  | ok =>
    rw [RowEvent.registry_saveInOrder valid]
    refine ⟨h.named.putWindow _ _ _, ?_, h.tables⟩
    intro t w hw
    rw [TableRegistry.window?_putWindow] at hw
    split at hw
    · obtain rfl := Option.some.inj hw
      exact RowEvent.described_saveInto (h.windowFor declared s) event m entries
    · exact h.windows t w hw

/-- What the store tells of the table of a window has kinds, and leaves the window described. -/
theorem adopt (h : e.Orderly) {w : Window} (described : w.Described) {d : TrialStore}
    {known : ColumnRegistry} (tells : Tells e.destination w known d) :
    known.Typed ∧ (w.adopt known).Described := by
  have typed : known.Typed := by
    rw [TrialStore.known_of_tells tells]
    exact (h.tables w.path).typed
  exact ⟨typed, described.keeps (ColumnRegistry.keeps_adopt w.columns typed)⟩

theorem tableStep (h : e.Orderly) {cooldown : Option Nat} {now : Nat}
    {outcome : Outcome TableFlush} (step : TableStep e t cooldown now e' outcome) :
    e'.Orderly := by
  have adopted : ∀ {b : TableBuffer} {w : Window} {d : TrialStore} {known : ColumnRegistry},
      e.registry.Holds t b w → Tells e.destination w known d →
        ∀ t' v, (e.registry.set b.tableId (b.setWindow (w.adopt known))).window? t' = some v →
          v.Described := by
    intro b w d known holds tells t' v hv
    rw [TableRegistry.window?_set] at hv
    split at hv
    · obtain rfl := Option.some.inj hv
      exact (h.adopt (h.windows t w holds.window?) tells).2
    · exact h.windows t' v hv
  have probed : ∀ {w : Window} {d : TrialStore}, Probes w e.destination d →
      ∀ p, (d.store.table p).Regular := by
    intro w d probes p
    rw [TrialStore.store_probes probes]
    exact h.tables p
  have written : ∀ {b : TableBuffer} {w : Window} {d d' : TrialStore} {known : ColumnRegistry}
      {commits : Bool}, e.registry.Holds t b w → Tells e.destination w known d →
        Destination.write d (w.adopt known) = (.ok commits, d') →
          ∀ p, (d'.store.table p).Regular := by
    intro b w d d' known commits holds tells write p
    have described := (h.adopt (h.windows t w holds.window?) tells).2
    exact (TrialStore.write_of_ok described.wellFormed write).regular p (probed tells.probes p)
  refine ⟨step.named h.named, ?_, ?_⟩
  · cases step with
    | nothing _ => exact h.windows
    | cooled _ _ _ => exact h.windows
    | unknown _ _ _ => exact h.windows
    | failed holds tells _ => exact adopted holds tells
    | denied holds tells _ => exact adopted holds tells
    | @written b w holds _ _ _ _ _ finished =>
      intro t' v hv
      rw [TableRegistry.window?_set] at hv
      split at hv
      · cases hv
      · exact h.windows t' v hv
  · cases step with
    | nothing _ => exact h.tables
    | cooled _ _ _ => exact h.tables
    | unknown _ probes _ => exact probed probes
    | failed _ tells _ => exact probed tells.probes
    | denied holds tells write => exact written holds tells write
    | written holds tells write _ => exact written holds tells write

/-- The flush of a table leaves the columns of its window as they are, or it matches them with
those of the stored table. -/
theorem keeps_tableStep (h : e.Orderly) {w w' : Window} (hw : e.registry.window? t = some w)
    {cooldown : Option Nat} {now : Nat} {outcome : Outcome TableFlush}
    (step : TableStep e t cooldown now e' outcome) (hw' : e'.registry.window? t = some w') :
    w.columns.Keeps (e.destination.store.table w.path).columns.Offers w'.columns := by
  have same : e.registry.window? t = some w' →
      w.columns.Keeps (e.destination.store.table w.path).columns.Offers w'.columns := by
    intro hw'
    obtain rfl := Option.some.inj (hw.symm.trans hw')
    exact .refl w.columns
  have adopted : ∀ {b : TableBuffer} {w₀ : Window} {d : TrialStore} {known : ColumnRegistry},
      e.registry.Holds t b w₀ → Tells e.destination w₀ known d →
        (e.registry.set b.tableId (b.setWindow (w₀.adopt known))).window? t = some w' →
          w.columns.Keeps (e.destination.store.table w.path).columns.Offers w'.columns := by
    intro b w₀ d known holds tells kept
    obtain rfl := Option.some.inj (hw.symm.trans holds.window?)
    rw [TableRegistry.window?_set, if_pos (h.named t b holds.buffer).symm] at kept
    obtain rfl := Option.some.inj kept
    have typed := (h.adopt (h.windows t w hw) tells).1
    rw [← TrialStore.known_of_tells tells]
    exact ColumnRegistry.keeps_adopt w.columns typed
  cases step with
  | nothing _ => exact same hw'
  | cooled _ _ _ => exact same hw'
  | unknown _ _ _ => exact same hw'
  | failed holds tells _ => exact adopted holds tells hw'
  | denied holds tells _ => exact adopted holds tells hw'
  | @written b _ holds _ _ _ _ _ finished =>
    rw [TableRegistry.window?_set, if_pos (h.named t b holds.buffer).symm] at hw'
    cases hw'

end Orderly

/-! ## Acts -/

variable (κ) in
/-- Something that happens to tables. -/
inductive Act where
  /-- An event is saved.  Its values are visited in some order. -/
  | save (s : TopicSettings) (m : Message) (event : RowEvent) (entries : List (String × Json))
    (order : entries.Perm event.data.toList) (declared : event.declared.WellFormed)
  /-- Failures of writes are planned, and whether commits are denied. -/
  | plan (failures : Nat) (tableFailures : SortedMap String Nat) (deniesCommits : Bool)
  /-- The flush of a table is tried. -/
  | flush (t : TableId) (cooldown : Option Nat) (now : Nat)
  /-- The flush of a topic ends. -/
  | settle (topic : String) (source : κ) (outcomes : List (Outcome TableFlush))

/-- The act saves an event of the table that breaks no rule, and finds no row of the table. -/
def Act.Opens (a : Act κ) (t : TableId) (e : Engine TrialStore κ) : Prop :=
  match a with
  | .save _ _ event _ _ _ => event.tableId = t ∧ event.isValid ∧ e.registry.Vacant t
  | _ => False

instance (a : Act κ) (t : TableId) (e : Engine TrialStore κ) : Decidable (a.Opens t e) :=
  match a with
  | .save _ _ event _ _ _ =>
    inferInstanceAs (Decidable (event.tableId = t ∧ event.isValid ∧ e.registry.Vacant t))
  | .plan .. | .flush .. | .settle .. => .isFalse id

/-- The acts open no window. -/
def OpenNone (as : List (Act κ)) : Prop :=
  ∀ a ∈ as, ∀ (t : TableId) (e : Engine TrialStore κ), ¬ a.Opens t e

theorem openNone_nil : OpenNone ([] : List (Act κ)) := by
  intro a mem
  cases mem

theorem OpenNone.append {as more : List (Act κ)} (h : OpenNone as) (h' : OpenNone more) :
    OpenNone (as ++ more) := fun a mem =>
  (List.mem_append.1 mem).elim (h a) (h' a)

variable [Source κ]

/-- The engine after an act. -/
def act (e : Engine TrialStore κ) : Act κ → Engine TrialStore κ
  | .save s m event entries _ _ =>
    { e with registry := (event.saveInOrder s m entries e.registry).1 }
  | .plan failures tableFailures deniesCommits =>
    { e with
      destination.failures := failures
      destination.tableFailures := tableFailures
      destination.deniesCommits := deniesCommits }
  | .flush t cooldown now => (e.flushTable t cooldown now).state
  | .settle topic source outcomes => (e.settle topic source outcomes).1

/-- The engine after several acts. -/
def acts (e : Engine TrialStore κ) (as : List (Act κ)) : Engine TrialStore κ := as.foldl act e

theorem acts_append (e : Engine TrialStore κ) (as more : List (Act κ)) :
    e.acts (as ++ more) = (e.acts as).acts more :=
  List.foldl_append ..

theorem Orderly.act (h : e.Orderly) (a : Act κ) : (e.act a).Orderly := by
  cases a with
  | save s m event entries order declared => exact h.save declared s m entries
  | plan failures tableFailures deniesCommits => exact ⟨h.named, h.windows, h.tables⟩
  | flush t cooldown now => exact h.tableStep (e.flushTable_step t cooldown now)
  | settle topic source outcomes =>
    obtain ⟨registry, destination⟩ := e.settle_keeps topic source outcomes
    refine ⟨?_, ?_, ?_⟩
    · exact registry ▸ h.named
    · exact registry ▸ h.windows
    · exact destination ▸ h.tables

theorem Orderly.acts (h : e.Orderly) (as : List (Act κ)) : (e.acts as).Orderly := by
  induction as generalizing e with
  | nil => exact h
  | cons a rest ih => exact ih (h.act a)

/-! ## Acts that make up a flush or an intake -/

theorem flushTables_eq_acts (e : Engine TrialStore κ) (cooldown : Option Nat) (now : Nat)
    (ts : List TableId) :
    (e.flushTables cooldown now ts).1 = e.acts (ts.map (.flush · cooldown now)) := by
  induction ts generalizing e with
  | nil => rfl
  | cons t rest ih => exact ih (e.flushTable t cooldown now).state

theorem flushTopic_eq_acts (e : Engine TrialStore κ) (topic : String) (tables : List TableId)
    (cooldown : Option Nat) (now : Nat) :
    ∃ as, OpenNone as ∧ (e.flushTopic topic tables cooldown now).state = e.acts as := by
  unfold flushTopic
  cases e.sources.get? topic with
  | none => exact ⟨[], openNone_nil, rfl⟩
  | some source =>
    refine ⟨tables.map (.flush · cooldown now) ++
      [.settle topic source (e.flushTables cooldown now tables).2.1], ?_, ?_⟩
    · refine .append ?_ ?_
      · intro a mem t e
        obtain ⟨t', -, rfl⟩ := List.mem_map.1 mem
        exact id
      · intro a mem t e
        rw [List.mem_singleton.1 mem]
        exact id
    · rw [acts_append, ← flushTables_eq_acts]
      rfl

theorem flushTopics_eq_acts (e : Engine TrialStore κ) (cooldown : Option Nat) (now : Nat)
    (topics : List (String × List TableId)) :
    ∃ as, OpenNone as ∧ (e.flushTopics cooldown now topics).1 = e.acts as := by
  induction topics generalizing e with
  | nil => exact ⟨[], openNone_nil, rfl⟩
  | cons first rest ih =>
    obtain ⟨as, closed, same⟩ := e.flushTopic_eq_acts first.1 first.2 cooldown now
    obtain ⟨more, closed', same'⟩ := ih (e.flushTopic first.1 first.2 cooldown now).state
    refine ⟨as ++ more, closed.append closed', ?_⟩
    rw [acts_append, ← same]
    exact same'

/-- A flush is a list of acts. -/
theorem flush_eq_acts (e : Engine TrialStore κ) (order : FlushOrder) (now : Nat) :
    ∃ as, OpenNone as ∧ (e.flush order now).state = e.acts as := by
  unfold flush
  cases e.selection order with
  | error f => exact ⟨[], openNone_nil, rfl⟩
  | ok topics => exact e.flushTopics_eq_acts order.cooldown now topics

/-- The intake of a message that has an event is an act. -/
theorem ingest_eq_acts (e : Engine TrialStore κ) {s : TopicSettings} {mode : Mode} {now : Instant}
    {m : Message} {event : RowEvent} (made : RowEvent.ofMessage s mode now m = .ok (some event)) :
    ∃ declared, (e.ingest s mode now m).1 =
      e.acts [.save s m event event.data.toList (.refl _) declared] := by
  obtain ⟨key, c, decoded, shaped⟩ := RowEvent.ofMessage_parts made
  refine ⟨RowEvent.wellFormed_declared (Debezium.wellFormed_of_readValue decoded) shaped, ?_⟩
  unfold ingest TableRegistry.ingest
  rw [made]
  rfl

/-! ## The columns of a window -/

/-- A flush of the table, which is one of the acts, finds the kind for a column in the store. -/
def Finds (e : Engine TrialStore κ) (t : TableId) (as : List (Act κ)) (n : String)
    (kind : ColumnKind) : Prop :=
  ∃ before cooldown now after w, as = before ++ .flush t cooldown now :: after ∧
    (e.acts before).registry.window? t = some w ∧
    ((e.acts before).destination.store.table w.path).columns.Offers n kind

theorem Finds.append {as : List (Act κ)} {n : String} {kind : ColumnKind}
    (h : e.Finds t as n kind) (more : List (Act κ)) : e.Finds t (as ++ more) n kind := by
  obtain ⟨before, cooldown, now, after, w, rfl, hw, offers⟩ := h
  refine ⟨before, cooldown, now, after ++ more, w, ?_, hw, offers⟩
  rw [List.append_assoc, List.cons_append]

theorem Finds.after {as more : List (Act κ)} {n : String} {kind : ColumnKind}
    (h : (e.acts as).Finds t more n kind) : e.Finds t (as ++ more) n kind := by
  obtain ⟨before, cooldown, now, after, w, rfl, hw, offers⟩ := h
  rw [← acts_append] at hw offers
  exact ⟨as ++ before, cooldown, now, after, w, (List.append_assoc ..).symm, hw, offers⟩

/-- The columns of a window after an act that neither opens a new window nor wipes this one. -/
theorem keeps_act (h : e.Orderly) {w w' : Window} (hw : e.registry.window? t = some w) {a : Act κ}
    (stays : ¬ a.Opens t e) (hw' : (e.act a).registry.window? t = some w') :
    w.columns.Keeps (e.Finds t [a]) w'.columns := by
  have same : (e.act a).registry.window? t = e.registry.window? t →
      w.columns.Keeps (e.Finds t [a]) w'.columns := by
    intro same
    rw [same, hw] at hw'
    obtain rfl := Option.some.inj hw'
    exact .refl w.columns
  cases a with
  | plan failures tableFailures deniesCommits => exact same rfl
  | settle topic source outcomes =>
    refine same ?_
    rw [act, (e.settle_keeps topic source outcomes).1]
  | save s m event entries order declared =>
    cases valid : event.validate with
    | error f =>
      refine same ?_
      rw [act, RowEvent.saveInOrder_invalid s m entries e.registry valid]
    | ok =>
      rw [act, RowEvent.registry_saveInOrder valid, TableRegistry.window?_putWindow] at hw'
      split at hw'
      · rename_i here
        obtain rfl := Option.some.inj hw'
        rcases event.windowFor_cases s (e.registry.getOrNew event.tableId s.topic) with
          ⟨empty, -⟩ | ⟨w₀, hw₀, -, old⟩
        · refine absurd ⟨here.symm, ?_, here ▸ TableRegistry.vacant_of_getOrNew empty⟩ stays
          rw [RowEvent.isValid, valid]
        · rw [TableRegistry.window_getOrNew, ← here, hw] at hw₀
          obtain rfl := Option.some.inj hw₀
          have added := ColumnRegistry.keeps_addAll
            (K := e.Finds t [.save s m event entries order declared]) w.columns
              event.declared.columns
          rw [old]
          exact added.trans (RowEvent.keeps_saveInto event m
            { w with columns := w.columns.addAll event.declared.columns } entries)
      · rw [hw] at hw'
        obtain rfl := Option.some.inj hw'
        exact .refl w.columns
  | flush t' cooldown now =>
    have step := e.flushTable_step t' cooldown now
    by_cases here : t' = t
    · subst here
      exact (h.keeps_tableStep hw step hw').mono fun n kind offers =>
        ⟨[], cooldown, now, [], w, rfl, hw, offers⟩
    · refine same ?_
      unfold TableRegistry.window?
      rw [act, step.get?_of_ne h.named (Ne.symm here)]

/-! ## While a window lasts -/

/-- The window of the table lasts through the acts: none of them opens a new one, and none wipes
it. -/
def WindowLasts (t : TableId) : Engine TrialStore κ → List (Act κ) → Prop
  | _, [] => True
  | e, a :: rest =>
    ¬ a.Opens t e ∧ ((e.act a).registry.window? t).isSome ∧ WindowLasts t (e.act a) rest

instance decidableWindowLasts (t : TableId) :
    (e : Engine TrialStore κ) → (as : List (Act κ)) → Decidable (e.WindowLasts t as)
  | _, [] => .isTrue trivial
  | e, a :: rest =>
    have := decidableWindowLasts t (e.act a) rest
    inferInstanceAs (Decidable (_ ∧ _ ∧ _))

theorem windowLasts_append {as more : List (Act κ)} :
    e.WindowLasts t (as ++ more) ↔ e.WindowLasts t as ∧ (e.acts as).WindowLasts t more := by
  induction as generalizing e with
  | nil => exact (and_iff_right trivial).symm
  | cons a rest ih =>
    show _ ∧ _ ∧ (e.act a).WindowLasts t (rest ++ more) ↔ (_ ∧ _ ∧ (e.act a).WindowLasts t rest) ∧ _
    rw [ih, and_assoc, and_assoc]
    rfl

/-- An act that opens a window leaves it. -/
theorem window?_of_opens {a : Act κ} (opens : a.Opens t e) :
    ∃ w, (e.act a).registry.window? t = some w := by
  cases a with
  | save s m event entries order declared =>
    obtain ⟨rfl, valid, -⟩ := opens
    cases validates : event.validate with
    | error f =>
      rw [RowEvent.isValid, validates] at valid
      cases valid
    | ok =>
      rw [act, RowEvent.registry_saveInOrder validates]
      exact ⟨_, (TableRegistry.window?_putWindow ..).trans (if_pos rfl)⟩
  | plan => cases opens
  | flush => cases opens
  | settle => cases opens

/-- The columns of a window after acts through which it lasts. -/
theorem keeps_acts (h : e.Orderly) {w : Window} (hw : e.registry.window? t = some w)
    {as : List (Act κ)} (lasts : e.WindowLasts t as) :
    ∃ w', (e.acts as).registry.window? t = some w' ∧ w.columns.Keeps (e.Finds t as) w'.columns := by
  induction as using List.reverseRecOn with
  | nil => exact ⟨w, hw, .refl w.columns⟩
  | append_singleton as a ih =>
    obtain ⟨before, stays, there, -⟩ := windowLasts_append.1 lasts
    obtain ⟨w₁, hw₁, kept⟩ := ih before
    obtain ⟨w₂, hw₂⟩ := Option.isSome_iff_exists.1 there
    have last := keeps_act (h.acts as) hw₁ stays hw₂
    refine ⟨w₂, ?_, ?_⟩
    · rw [acts_append]
      exact hw₂
    · exact (kept.mono fun _ _ finds => finds.append [a]).trans
        (last.mono fun _ _ finds => finds.after)

/-- While a window lasts, no name of its columns is empty and none stands twice, every value of a
row that has a name has its column, which is marked where the placeholder stands, and what the
columns said before holds on: their order, their marks, and their kinds unless a flush of the table
found another one in the store. -/
theorem keeps_columns (thresholds : Thresholds) (limit : Nat) (sources : SortedMap String κ)
    (retry : RetryPolicy) (past : List (Act κ)) {first : Act κ}
    (opens : first.Opens t
      ((new thresholds (TrialStore.new (.new limit)) sources retry).acts past))
    {earlier later : List (Act κ)}
    (lasts : ((new thresholds (TrialStore.new (.new limit)) sources retry).acts
      (past ++ [first])).WindowLasts t (earlier ++ later)) :
    ∃ e w w', e = (new thresholds (TrialStore.new (.new limit)) sources retry).acts
        (past ++ first :: earlier) ∧
      e.registry.window? t = some w ∧ (e.acts later).registry.window? t = some w' ∧
        w'.Described ∧ w.columns.Keeps (e.Finds t later) w'.columns := by
  have start := orderly_new thresholds limit sources retry
  obtain ⟨lasts, goesOn⟩ := windowLasts_append.1 lasts
  rw [acts_append] at lasts goesOn
  obtain ⟨w₀, hw₀⟩ := window?_of_opens opens
  obtain ⟨w, hw, -⟩ := keeps_acts ((start.acts past).act first) hw₀ lasts
  have orderly := ((start.acts past).act first).acts earlier
  obtain ⟨w', hw', kept⟩ := keeps_acts orderly hw goesOn
  refine ⟨_, w, w', rfl, ?_, ?_, (orderly.acts later).windows t w' hw', ?_⟩
  · rw [acts_append]
    exact hw
  · rw [acts_append]
    exact hw'
  · rw [acts_append]
    exact kept

/-! ## A sample run -/

/-- The change of a row is saved. -/
def sampleSave (fields : List (String × Json)) : Act MessageQueue :=
  let event : RowEvent := {
    table := "people"
    tableId := ⟨"public", "people"⟩
    data := .ofList ([("id", .int 1), (SystemColumn.deleted, .bool false)] ++ fields)
    hints := none
    columns := none
    isDelete := false
    primaryKeys := ["id"]
    time := ⟨0⟩
    mode := .replication }
  .save (Sample.settings "people") (Sample.message "people" 0 .empty .empty) event
    event.data.toList (.refl _) ColumnRegistry.wellFormed_empty

/-- The flush of the table is tried. -/
def sampleTry : Act MessageQueue := .flush ⟨"public", "people"⟩ none 0

/-- An engine that tries a write once. -/
def sampleEngine : Engine TrialStore MessageQueue :=
  new ⟨10, 100⟩ (.new (.new 1000)) (.ofList [("people", .new "people" .latestPerPartition)])
    (.new 0 0 1 fun _ => true)

/-- The store gets a table. -/
def samplePast : List (Act MessageQueue) := [sampleSave [("age", .int 36)], sampleTry]

/-- A window starts, in which a column has another kind than in the store. -/
def sampleFirst : Act MessageQueue := sampleSave [("age", .string "36")]

/-- A value is left out. -/
def sampleEarlier : List (Act MessageQueue) := [sampleSave [("name", .string Json.unavailable)]]

/-- A flush fails, and the value that was left out comes in. -/
def sampleLater : List (Act MessageQueue) :=
  [.plan 1 .empty false, sampleTry, sampleSave [("name", .string "Ada")]]

theorem keeps_columns_sampleLater :
    (sampleFirst.Opens ⟨"public", "people"⟩ (sampleEngine.acts samplePast) ∧
      (sampleEngine.acts (samplePast ++ [sampleFirst])).WindowLasts ⟨"public", "people"⟩
        (sampleEarlier ++ sampleLater)) ∧
      ∃ e w w', e = sampleEngine.acts (samplePast ++ sampleFirst :: sampleEarlier) ∧
        e.registry.window? ⟨"public", "people"⟩ = some w ∧
        (e.acts sampleLater).registry.window? ⟨"public", "people"⟩ = some w' ∧
          w'.Described ∧ w.columns.Keeps (e.Finds ⟨"public", "people"⟩ sampleLater) w'.columns := by
  have opens : sampleFirst.Opens ⟨"public", "people"⟩ (sampleEngine.acts samplePast) := by
    decide +kernel
  have lasts : (sampleEngine.acts (samplePast ++ [sampleFirst])).WindowLasts ⟨"public", "people"⟩
      (sampleEarlier ++ sampleLater) := by
    decide +kernel
  exact ⟨⟨opens, lasts⟩, keeps_columns _ _ _ _ samplePast opens lasts⟩

end Engine

end ChangeCapture
