import ChangeCapture.Proofs.Engine.Hosting
import ChangeCapture.Proofs.Engine.Listed
import ChangeCapture.Proofs.Trial.Planned

/-!
# Tables that change places

The flush of a table is a step at the buffer of the table and at the place of its
window at the destination (`Engine.flushTable_of_get?`).  Buffers stand under
different names, and so do the places of their windows (`TableRegistry.Apart`).  So
over a store with a plan for each table two tables can be flushed in either order
(`Engine.flushTable_comm`), and each of them ends as if it were flushed alone
(`Engine.flushTables_outcomes`).
-/

namespace ChangeCapture

/-! ## One buffer -/

/-- What the flush of a table leads to. -/
structure BufferFlush where
  /-- The buffer after it. -/
  buffer : TableBuffer
  /-- The outcome. -/
  outcome : Outcome TableFlush
  /-- The milliseconds spent in pauses. -/
  paused : Nat

namespace TableBuffer

/-- What the tries to write a window lead to. -/
def finish (b : TableBuffer) (w : Window) (now paused : Nat) : Outcome Bool × Nat → BufferFlush
  | (.error f, more) => ⟨b.setWindow w, .error f, paused + more⟩
  | (.ok false, more) => ⟨b.setWindow w, .ok .kept, paused + more⟩
  | (.ok true, more) =>
    ⟨b.wipe (now + (paused + more)), .ok (.written w.lastMessages), paused + more⟩

section Flush

variable {δ : Type} [Destination δ]

/-- Writes a window once the destination was asked about its table. -/
def write (b : TableBuffer) (w : Window) (retry : RetryPolicy) (now : Nat) :
    Outcome TableDescription × Nat → δ → BufferFlush × δ
  | (.error f, paused), d => (⟨b, .error f, paused⟩, d)
  | (.ok description, paused), d =>
    let w := w.adopt description.columns
    let written := (retry.run (fun _ d => Destination.write d w) d).told
    (b.finish w now paused written.1, written.2)

/-- Flushes a buffer to a destination. -/
def flushTo (b : TableBuffer) (retry : RetryPolicy) (cooldown : Option Nat) (now : Nat) (d : δ) :
    BufferFlush × δ :=
  match b.startFlush cooldown now with
  | .done flush => (⟨b, .ok flush, 0⟩, d)
  | .write w =>
    let described := (retry.run (fun _ d => Destination.describe d w.path) d).told
    b.write w retry now described.1 described.2

end Flush

/-- The place of the window of a buffer. -/
def place (b : TableBuffer) : TablePath :=
  (b.window.map Window.path).getD ⟨"", b.tableId.schema, b.tableId.name⟩

theorem window_of_startFlush {b : TableBuffer} {cooldown : Option Nat} {now : Nat} {w : Window}
    (h : b.startFlush cooldown now = .write w) : b.window = some w := by
  unfold startFlush at h
  split at h
  · cases h
  · rename_i w' hw
    split at h
    · cases h
    · split at h
      · cases h
      · injection h with same
        rw [hw, same]

/-- The flush of a buffer is a step at the place of its window. -/
theorem local_flushTo (b : TableBuffer) (retry : RetryPolicy) (cooldown : Option Nat) (now : Nat) :
    PlannedStore.Local b.place fun d => b.flushTo retry cooldown now d := by
  unfold flushTo
  cases start : b.startFlush cooldown now with
  | done flush => exact .pure b.place _
  | write w =>
    have place : w.path = b.place := by
      rw [TableBuffer.place, window_of_startFlush start]
      rfl
    refine (PlannedStore.local_run retry
      fun _ => place ▸ PlannedStore.local_describe w.path).bind ?_
    rintro ⟨outcome, paused⟩
    cases outcome with
    | error f => exact .pure b.place _
    | ok description =>
      have adopted : (w.adopt description.columns).path = b.place := place
      exact (PlannedStore.local_run retry fun _ => adopted ▸ PlannedStore.local_write _).bind
        fun told => .pure b.place _

end TableBuffer

namespace Engine

variable {δ κ : Type} [Destination δ] {e : Engine δ κ} {t : TableId} {b : TableBuffer}

/-- The flush of a table replaces its buffer and writes to the destination. -/
theorem flushTable_of_get? (hb : e.registry.get? t = some b) (name : b.tableId = t)
    (cooldown : Option Nat) (now : Nat) :
    e.flushTable t cooldown now =
      ⟨{ e with
          registry := e.registry.set t (b.flushTo e.retry cooldown now e.destination).1.buffer
          destination := (b.flushTo e.retry cooldown now e.destination).2 },
        (b.flushTo e.retry cooldown now e.destination).1.outcome,
        (b.flushTo e.retry cooldown now e.destination).1.paused⟩ := by
  have kept : e.registry.set t b = e.registry := by
    unfold TableRegistry.get? at hb
    rw [TableRegistry.set, SortedMap.insert_of_get? hb]
  simp only [flushTable, hb]
  unfold TableBuffer.flushTo
  cases start : b.startFlush cooldown now with
  | done flush => simp only [kept]
  | write w =>
    simp only [writeWindow, Tried.told]
    cases (e.retry.run (fun _ d => Destination.describe d w.path) e.destination).outcome with
    | error f => simp only [TableBuffer.write, kept]
    | ok description =>
      simp only [TableBuffer.write, Tried.told]
      cases (e.retry.run (fun _ d => Destination.write d (w.adopt description.columns))
        (e.retry.run (fun _ d => Destination.describe d w.path) e.destination).state).outcome with
      | error f => simp only [TableBuffer.finish, setWindow, name]
      | ok commits =>
        cases commits with
        | false =>
          simp only [TableBuffer.finish, finishWrite, setWindow, name]
          rfl
        | true =>
          simp only [TableBuffer.finish, finishWrite, name]
          rfl

theorem flushTable_of_none (absent : e.registry.get? t = none) (cooldown : Option Nat) (now : Nat) :
    e.flushTable t cooldown now = ⟨e, .ok .nothing, 0⟩ := by
  simp only [flushTable, absent]

end Engine

/-! ## Two tables -/

namespace TableRegistry

/-- Every table is listed once, and every window stands at the place of its table. -/
structure Apart (r : TableRegistry) : Prop where
  /-- Every table is listed once. -/
  orderly : r.Orderly
  /-- Every window stands at the place of its table. -/
  placed : ∀ t b w, r.get? t = some b → b.window = some w →
    w.path.schema = t.schema ∧ w.path.name = t.name

variable {r : TableRegistry}

theorem Apart.place (h : r.Apart) {t : TableId} {b : TableBuffer} (hb : r.get? t = some b) :
    b.place.schema = t.schema ∧ b.place.name = t.name := by
  unfold TableBuffer.place
  cases hw : b.window with
  | none =>
    rw [Option.map_none, Option.getD_none, h.orderly.named t b hb]
    exact ⟨rfl, rfl⟩
  | some w => exact h.placed t b w hb hw

theorem Apart.place_ne (h : r.Apart) {t t' : TableId} {b b' : TableBuffer}
    (hb : r.get? t = some b) (hb' : r.get? t' = some b') (ne : t ≠ t') : b.place ≠ b'.place := by
  intro same
  obtain ⟨schema, name⟩ := h.place hb
  obtain ⟨schema', name'⟩ := h.place hb'
  rw [← same] at schema' name'
  cases t
  cases t'
  simp_all

theorem set_comm (r : TableRegistry) {t t' : TableId} (b b' : TableBuffer) (ne : t ≠ t') :
    (r.set t b).set t' b' = (r.set t' b').set t b := by
  have tables : (r.tables.insert t b).insert t' b' = (r.tables.insert t' b').insert t b := by
    refine SortedMap.ext_get? fun k => ?_
    simp only [SortedMap.get?_insert]
    by_cases here : k = t
    · rw [if_neg (fun there => ne (here.symm.trans there)), if_pos here, if_pos here]
    · rw [if_neg here, if_neg here]
  rw [set, set, set, set]
  simp only [tables]

end TableRegistry

namespace Engine

/-- The flush of a table keeps every window at its place. -/
theorem TableStep.apart {δ κ : Type} [Destination δ] {e e' : Engine δ κ} {t : TableId}
    {cooldown : Option Nat} {now : Nat} {outcome : Outcome TableFlush}
    (h : TableStep e t cooldown now e' outcome) (apart : e.registry.Apart) :
    e'.registry.Apart := by
  refine ⟨h.orderly apart.orderly, fun t' b w hb hw => ?_⟩
  rcases h.replaces apart.orderly.named with same | ⟨b₀, b', there, -, -, windows, replaced⟩
  · rw [same] at hb
    exact apart.placed t' b w hb hw
  · rw [replaced, TableRegistry.get?_set] at hb
    split at hb
    · rename_i same
      obtain rfl := Option.some.inj hb
      obtain ⟨w₀, known, hw₀, rfl⟩ := windows w hw
      rw [same]
      exact apart.placed t b₀ w₀ there hw₀
    · exact apart.placed t' b w hb hw

section Planned

variable {κ : Type} {e : Engine PlannedStore κ} {t t' : TableId}

/-- Two tables can be flushed in either order.  Each of them ends as it does alone. -/
theorem flushTable_comm (apart : e.registry.Apart) (ne : t ≠ t') (cooldown : Option Nat)
    (now : Nat) :
    ((e.flushTable t cooldown now).state.flushTable t' cooldown now).state =
        ((e.flushTable t' cooldown now).state.flushTable t cooldown now).state ∧
      ((e.flushTable t cooldown now).state.flushTable t' cooldown now).outcome =
        (e.flushTable t' cooldown now).outcome ∧
      ((e.flushTable t cooldown now).state.flushTable t' cooldown now).paused =
        (e.flushTable t' cooldown now).paused := by
  have named := apart.orderly.named
  cases hb : e.registry.get? t with
  | none =>
    have kept : (e.flushTable t' cooldown now).state.registry.get? t = none :=
      ((e.flushTable_step t' cooldown now).get?_of_ne named ne).trans hb
    rw [flushTable_of_none hb, flushTable_of_none kept]
    exact ⟨rfl, rfl, rfl⟩
  | some b =>
    cases hb' : e.registry.get? t' with
    | none =>
      have kept : (e.flushTable t cooldown now).state.registry.get? t' = none :=
        ((e.flushTable_step t cooldown now).get?_of_ne named ne.symm).trans hb'
      rw [flushTable_of_none hb', flushTable_of_none kept]
      exact ⟨rfl, rfl, rfl⟩
    | some b' =>
      have places := apart.place_ne hb hb' ne
      have first := b.local_flushTo e.retry cooldown now
      have second := b'.local_flushTo e.retry cooldown now
      rw [flushTable_of_get? hb (named t b hb), flushTable_of_get? hb' (named t' b' hb')]
      have there : ∀ b₁, (e.registry.set t b₁).get? t' = some b' := fun b₁ => by
        rw [TableRegistry.get?_set, if_neg ne.symm, hb']
      have there' : ∀ b₁, (e.registry.set t' b₁).get? t = some b := fun b₁ => by
        rw [TableRegistry.get?_set, if_neg ne, hb]
      rw [flushTable_of_get? (there _) (named t' b' hb'),
        flushTable_of_get? (there' _) (named t b hb)]
      have alone := second.outcome_eq (first.site_of_ne places.symm e.destination)
      have alone' := first.outcome_eq (second.site_of_ne places e.destination)
      simp only [alone, alone', first.comm second places e.destination]
      exact ⟨by rw [TableRegistry.set_comm _ _ _ ne], trivial, trivial⟩

/-- How the flush of a table ends is told by what stands at its place. -/
theorem outcome_of_site (apart : e.registry.Apart) {d : PlannedStore}
    (same : ∀ p : TablePath, p.schema = t.schema → p.name = t.name →
      d.site p = e.destination.site p) (cooldown : Option Nat) (now : Nat) :
    (({ e with destination := d } : Engine PlannedStore κ).flushTable t cooldown now).outcome =
      (e.flushTable t cooldown now).outcome := by
  cases hb : e.registry.get? t with
  | none =>
    have hb' : ({ e with destination := d } : Engine PlannedStore κ).registry.get? t = none := hb
    rw [flushTable_of_none hb, flushTable_of_none hb']
  | some b =>
    have name := apart.orderly.named t b hb
    obtain ⟨schema, table⟩ := apart.place hb
    have hb' : ({ e with destination := d } : Engine PlannedStore κ).registry.get? t = some b := hb
    rw [flushTable_of_get? hb name, flushTable_of_get? hb' name]
    exact congrArg BufferFlush.outcome
      ((b.local_flushTo e.retry cooldown now).outcome_eq (same b.place schema table))

/-- Among tables that are flushed one after the other, each ends as it does alone. -/
theorem flushTables_outcomes (apart : e.registry.Apart) {tables : List TableId}
    (once : tables.Nodup) (cooldown : Option Nat) (now : Nat) :
    (e.flushTables cooldown now tables).2.1 =
        tables.map (fun t => (e.flushTable t cooldown now).outcome) ∧
      (e.flushTables cooldown now tables).2.2 =
        (tables.map fun t => (e.flushTable t cooldown now).paused).foldr max 0 := by
  induction tables generalizing e with
  | nil => exact ⟨rfl, rfl⟩
  | cons t rest ih =>
    obtain ⟨fresh, once⟩ := List.nodup_cons.1 once
    obtain ⟨outcomes, paused⟩ := ih ((e.flushTable_step t cooldown now).apart apart) once
    have alone : ∀ t' ∈ rest,
        ((e.flushTable t cooldown now).state.flushTable t' cooldown now).outcome =
            (e.flushTable t' cooldown now).outcome ∧
          ((e.flushTable t cooldown now).state.flushTable t' cooldown now).paused =
            (e.flushTable t' cooldown now).paused := by
      intro t' mem
      refine (flushTable_comm apart ?_ cooldown now).2
      rintro rfl
      exact fresh mem
    simp only [flushTables, outcomes, paused, List.map_cons, List.foldr_cons]
    rw [List.map_congr_left fun t' mem => (alone t' mem).1,
      List.map_congr_left fun t' mem => (alone t' mem).2]
    exact ⟨rfl, rfl⟩

theorem flushTables_perm (apart : e.registry.Apart) {tables tables' : List TableId}
    (once : tables.Nodup) (same : tables.Perm tables') (cooldown : Option Nat) (now : Nat) :
    (e.flushTables cooldown now tables').1 = (e.flushTables cooldown now tables).1 := by
  induction same generalizing e with
  | nil => rfl
  | cons t _ ih =>
    rw [flushTables_cons, flushTables_cons]
    exact ih ((e.flushTable_step t cooldown now).apart apart) (List.nodup_cons.1 once).2
  | swap t t' rest =>
    have ne : t ≠ t' := by
      rintro rfl
      exact (List.nodup_cons.1 once).1 List.mem_cons_self
    rw [flushTables_cons, flushTables_cons, flushTables_cons, flushTables_cons,
      (flushTable_comm apart ne cooldown now).1]
  | trans first _ ih ih' => exact (ih' apart (first.nodup_iff.1 once)).trans (ih apart once)

end Planned

end Engine

end ChangeCapture
