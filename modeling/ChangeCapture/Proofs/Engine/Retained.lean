import ChangeCapture.Proofs.Column.Keeping
import ChangeCapture.Proofs.Engine.Transcript

/-!
# What a flush keeps

A flush drops the rows of a table only if the destination took them and allowed a commit
in the end.  In every other case the buffer keeps everything, and its columns take over
what the destination knows about them (`Engine.retained_flush`).
-/

namespace ChangeCapture

/-! ## Columns -/

/-- A column before and after it takes over what is known about it. -/
structure Column.TakesOver (known : ColumnRegistry) (c c' : Column) : Prop where
  /-- The name stays. -/
  name : c'.name = c.name
  /-- A primary key stays one. -/
  primaryKey : c'.primaryKey = c.primaryKey
  /-- Whether a value was left out stays. -/
  toasted : c'.toasted = c.toasted
  /-- The default value stays. -/
  default? : c'.default? = c.default?
  /-- A column that is not known stays as it is. -/
  unknown : known.get? (Unicode.lowercase c.name) = none → c' = c
  /-- Of a known column the kind is taken over, or it stays. -/
  kind : ∀ k, known.get? (Unicode.lowercase c.name) = some k → c'.kind = k.kind ∨ c'.kind = c.kind
  /-- Of a known column it is taken over whether earlier rows were filled. -/
  backfilled : ∀ k, known.get? (Unicode.lowercase c.name) = some k → c'.backfilled = k.backfilled
  /-- A decimal does not become an integer. -/
  decimal : ∀ precision scale, c.kind = .decimal precision scale → c'.kind ≠ .integer

namespace ColumnRegistry

variable (known : ColumnRegistry)

theorem takesOver_adopted (c : Column) : c.TakesOver known (adopted known c) := by
  unfold adopted
  cases hk : known.get? (Unicode.lowercase c.name) with
  | none =>
    exact ⟨rfl, rfl, rfl, rfl, fun _ => rfl, by simp [hk], by simp [hk], by simp +contextual⟩
  | some k =>
    refine ⟨rfl, rfl, rfl, rfl, by simp [hk], ?_, ?_, ?_⟩
    · rintro k' hk'
      obtain rfl := Option.some.inj (hk.symm.trans hk')
      exact (kind_adopt_cases c k).symm
    · rintro k' hk'
      obtain rfl := Option.some.inj (hk.symm.trans hk')
      rfl
    · intro precision scale kind
      cases other : k.kind <;> simp [Column.adopt, kind, other]

/-- The columns take over what is known about them, one by one and in order. -/
theorem forall₂_adopt (r : ColumnRegistry) :
    List.Forall₂ (Column.TakesOver known) r.columns (r.adopt known).columns :=
  List.forall₂_map_right_iff.2 (List.forall₂_same.2 fun c _ => takesOver_adopted known c)

end ColumnRegistry

/-! ## Buffers -/

/-- A window before and after its columns take over what is known about them. -/
structure Window.Retained (known : ColumnRegistry) (w w' : Window) : Prop where
  /-- The columns take over what is known about them, in order. -/
  columns : List.Forall₂ (Column.TakesOver known) w.columns.columns w'.columns.columns
  /-- The rows stay, and so do the primary keys, the size, the marks of operations, the latest time,
  the messages and all the rest. -/
  rest : w' = { w with columns := w'.columns }

theorem Window.retained_adopt (known : ColumnRegistry) (w : Window) :
    w.Retained known (w.adopt known) :=
  ⟨ColumnRegistry.forall₂_adopt known w.columns, rfl⟩

/-- A buffer before and after the columns of its window take over what is known about them. -/
structure TableBuffer.Retained (known : ColumnRegistry) (b b' : TableBuffer) : Prop where
  /-- The window stays but for its columns. -/
  window : Option.Rel (Window.Retained known) b.window b'.window
  /-- The table and its topic stay, and so does the time of the last flush. -/
  rest : b' = { b with window := b'.window }

namespace TableBuffer

variable {b : TableBuffer} {cooldown : Option Nat} {now : Nat} {calls : List Call}
  {flush : BufferFlush}

theorem retained_adopt {w : Window} (hw : b.window = some w) (known : ColumnRegistry) :
    b.Retained known (b.setWindow (w.adopt known)) := by
  refine ⟨?_, rfl⟩
  rw [hw]
  exact .some (w.retained_adopt known)

/-- The rows are dropped once the destination took them and allowed a commit. -/
theorem Calls.window_of_committed (h : b.Calls cooldown now calls flush)
    (committed : Call.endsCommitted calls) : flush.buffer.window = none := by
  cases h with
  | idle => cases committed
  | unknown => simp [Call.endsCommitted, Call.isCommitted] at committed
  | written start failures description failures' answer =>
    cases answer with
    | error f => simp [Call.endsCommitted, Call.isCommitted] at committed
    | ok commits =>
      cases commits with
      | false => simp [Call.endsCommitted, Call.isCommitted] at committed
      | true => rfl

/-- Until then the buffer stays, and its columns take over what the destination told. -/
theorem Calls.retained (h : b.Calls cooldown now calls flush)
    (open? : Call.endsCommitted calls = false) :
    flush.buffer = b ∨ ∃ p description, Call.describe p (.ok description) ∈ calls ∧
      b.Retained description.columns flush.buffer := by
  cases h with
  | idle => exact .inl rfl
  | unknown => exact .inl rfl
  | @written w start failures description failures' answer =>
    have told : Call.describe w.path (.ok description) ∈
        Call.tries (.describe w.path) failures (.ok description) :=
      List.mem_append_right _ (List.mem_singleton_self _)
    have kept := retained_adopt (window_of_startFlush start) description.columns
    refine .inr ⟨w.path, description, List.mem_append_left _ told, ?_⟩
    cases answer with
    | error f => exact kept
    | ok commits =>
      cases commits with
      | false => exact kept
      | true => simp [Call.endsCommitted, Call.isCommitted] at open?

/-- Without a call the buffer stays as it is. -/
theorem Calls.buffer_of_nil (h : b.Calls cooldown now [] flush) : flush.buffer = b := by
  generalize none : ([] : List Call) = calls at h
  cases h with
  | idle => rfl
  | unknown => rfl
  | written => simp [Call.tries] at none

/-- Nothing is asked about a table that was flushed within the cooldown. -/
theorem Calls.eq_nil_of_cooling (h : b.Calls cooldown now calls flush) {c : Nat}
    (hc : cooldown = some c) (cooling : b.isCooling c now) : calls = [] := by
  have start : ∀ w, b.startFlush cooldown now ≠ .write w := by
    intro w
    unfold startFlush
    cases b.window with
    | none => simp
    | some v => by_cases empty : v.isEmpty <;> simp [empty, hc, cooling]
  cases h with
  | idle => rfl
  | unknown writes => exact absurd writes (start _)
  | written writes => exact absurd writes (start _)

end TableBuffer

/-! ## Flushes -/

namespace Engine

variable {δ κ : Type} [Destination δ] [Source κ] {e : Engine δ κ}

/-- In a reachable state, a flush drops the window of a table if the last call about the table is a
write whose rows were taken and may be committed.  In all other cases, as when every try failed, the
commit was denied or the table was flushed within the cooldown, the buffer keeps everything.  Only
its columns take over what the destination told about them in the flush, and without a call about
the table not even they do. -/
theorem retained_flush (h : e.Reachable) (order : FlushOrder) (now : Nat) {t : TableId}
    {b : TableBuffer} (hb : e.registry.get? t = some b) :
    ∃ b', (e.flush order now).state.registry.get? t = some b' ∧
      (Call.endsCommitted (Call.about t (e.calls order now)) = true → b'.window = none) ∧
      (Call.endsCommitted (Call.about t (e.calls order now)) = false →
        b' = b ∨ ∃ p description,
          Call.describe p (.ok description) ∈ Call.about t (e.calls order now) ∧
          b.Retained description.columns b') ∧
      (Call.about t (e.calls order now) = [] → b' = b) ∧
      ∀ c, order.cooldown = some c → b.isCooling c now → Call.about t (e.calls order now) = [] := by
  obtain ⟨-, left, reached⟩ := calls_flush h order now
  by_cases mem : t ∈ e.reached order
  · obtain ⟨flush, made, after⟩ := reached t mem b hb
    refine ⟨flush.buffer, after, made.window_of_committed, made.retained, fun none => ?_,
      fun c hc cooling => made.eq_nil_of_cooling hc cooling⟩
    rw [none] at made
    exact made.buffer_of_nil
  · obtain ⟨none, same⟩ := left t mem
    rw [none]
    exact ⟨b, same.trans hb, nofun, fun _ => .inl rfl, fun _ => rfl, fun _ _ _ => rfl⟩

/-- The writes of the one table fail twice, and its buffer keeps the row. -/
theorem retained_flush_trialFailing :
    trialFailing.Reachable ∧ ∃ b b', trialFailing.registry.get? ⟨"public", "items"⟩ = some b ∧
      (trialFailing.flush .shutdown 0).state.registry.get? ⟨"public", "items"⟩ = some b' ∧
      (Call.about ⟨"public", "items"⟩ (trialFailing.calls .shutdown 0)).length = 3 ∧
      b'.window.map Window.rowCount = some 1 ∧
      (b' = b ∨ ∃ p description, Call.describe p (.ok description) ∈
          Call.about ⟨"public", "items"⟩ (trialFailing.calls .shutdown 0) ∧
        b.Retained description.columns b') := by
  have facts : (trialFailing.registry.get? ⟨"public", "items"⟩).isSome ∧
      (Call.about ⟨"public", "items"⟩ (trialFailing.calls .shutdown 0)).length = 3 ∧
      Call.endsCommitted (Call.about ⟨"public", "items"⟩ (trialFailing.calls .shutdown 0)) =
        false ∧
      ((trialFailing.flush .shutdown 0).state.registry.get? ⟨"public", "items"⟩).map
        (fun b => b.window.map Window.rowCount) = some (some 1) := by decide +kernel
  obtain ⟨there, three, fails, rows⟩ := facts
  obtain ⟨b, hb⟩ := Option.isSome_iff_exists.1 there
  obtain ⟨b', after, -, retained, -⟩ := retained_flush reachable_trialFailing .shutdown 0 hb
  rw [after] at rows
  exact ⟨reachable_trialFailing, b, b', hb, after, three, Option.some.inj rows, retained fails⟩

end Engine

end ChangeCapture
