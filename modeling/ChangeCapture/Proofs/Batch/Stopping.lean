import ChangeCapture.Proofs.Batch.Calls
import ChangeCapture.Proofs.Store.Append

/-!
# Packings that stop

A packing stops at the first item that it rejects or at the first batch that the
receiver refuses (`Packing.Stops`).  At an item, the receiver has taken the batches
that the items before it fill, without the one that is still open.  At a batch, it
has taken the batches before it, which are told by the receiver that takes
everything.

An append packs all rows before the store changes, so it is whole or changes nothing
(`Store.AppendsWhole`).
-/

namespace ChangeCapture

namespace Batch

variable {α : Type} {σ : Type} {p : Packing α σ}

/-! ## The batch that is open -/

theorem entries_cut_ne_nil {limit : Nat} {current : Batch α} {es : List (α × ByteArray)}
    (filled : es ≠ []) : (cut limit current es).2.entries ≠ [] := by
  induction es generalizing current with
  | nil => exact absurd rfl filled
  | cons e rest ih =>
    cases rest with
    | nil =>
      simp only [cut]
      split <;> simp [entries_add]
    | cons e' rest =>
      rw [cut]
      split
      · exact ih (List.cons_ne_nil _ _)
      · exact ih (List.cons_ne_nil _ _)

/-- The batches that are closed are those that are offered in the end, but for the last one. -/
theorem dropLast_offers (limit : Nat) (es : List (α × ByteArray)) :
    (offers limit empty (es, .ok ())).dropLast = (cut limit empty es).1 := by
  cases es with
  | nil => rfl
  | cons e rest =>
    have begun : (cut limit empty (e :: rest)).2.entries ≠ [] :=
      entries_cut_ne_nil (List.cons_ne_nil e rest)
    simp only [offers, filled, List.isEmpty_iff, begun, if_false]
    exact List.dropLast_concat

/-- The items before the first one that is rejected are screened alike without those after them. -/
theorem screenFrom_take {index k : Nat} {items : List α} {item : α} {f : Fault}
    (there : items[k]? = some item) (rejects : p.Rejects (index + k) item f)
    (before : ∀ i x, i < k → items[i]? = some x → p.Passes (index + i) x) :
    screenFrom p.screen index (items.take k) = ((screenFrom p.screen index items).1, .ok ()) := by
  induction items generalizing index k with
  | nil => cases there
  | cons first rest ih =>
    cases k with
    | zero =>
      obtain rfl := Option.some.inj there
      have failed := screen_eq_error_iff.2 rejects
      rw [Nat.add_zero] at failed
      simp [screenFrom, failed]
    | succ k =>
      obtain ⟨kept, screened⟩ := screen_isOk_iff.2 (before 0 first (by omega) rfl)
      rw [Nat.add_zero] at screened
      have rejects : p.Rejects (index + 1 + k) item f := by rwa [Nat.add_assoc, Nat.add_comm 1 k]
      have before : ∀ i x, i < k → rest[i]? = some x → p.Passes (index + 1 + i) x := by
        intro i x lt hx
        rw [Nat.add_assoc, Nat.add_comm 1 i]
        exact before (i + 1) x (by omega) hx
      have tail := ih there rejects before
      rw [List.take_succ_cons]
      cases kept <;> simp only [screenFrom, screened, tail]

/-- A packing that ends at an item offers what the items before it fill. -/
theorem offers_of_rejects {k : Nat} {items : List α} {item : α} {f : Fault}
    (there : items[k]? = some item) (rejects : p.Rejects k item f)
    (before : ∀ i x, i < k → items[i]? = some x → p.Passes i x) :
    offers p.limit empty (screenFrom p.screen 0 items) = (p.yields (items.take k)).dropLast := by
  have rejects : p.Rejects (0 + k) item f := by rwa [Nat.zero_add]
  have before : ∀ i x, i < k → items[i]? = some x → p.Passes (0 + i) x := fun i x lt hx => by
    rw [Nat.zero_add]
    exact before i x lt hx
  have ends := screenFrom_eq_error_iff.2 ⟨k, item, there, rejects, before⟩
  rw [yields_eq, screenFrom_take there rejects before, dropLast_offers, offers, ends,
    List.append_nil]

/-! ## Stops -/

/-- A packing stops with a fault, and what has become of the receiver then. -/
inductive Packing.Stops (p : Packing α σ) (receiver : σ) (items : List α) : σ → Fault → Prop where
  /-- It stops at the first item that is rejected.  The receiver has taken the batches of the items
  before it, but for the one that is still open. -/
  | atItem {k : Nat} {item : α} {receiver' : σ} {f : Fault} (there : items[k]? = some item)
    (rejects : p.Rejects k item f)
    (before : ∀ i x, i < k → items[i]? = some x → p.Passes i x)
    (taken : (p.yields (items.take k)).dropLast.foldlM p.accept receiver = .ok receiver')
    (last : (p.calls receiver items).getLast? = some (.encode k item)) :
    Stops p receiver items receiver' f
  /-- It stops at the first batch that is refused.  The receiver has taken the batches before it. -/
  | atBatch {j : Nat} {b : Batch α} {receiver' : σ} {f : Fault}
    (there : (p.yields items)[j]? = some b)
    (taken : ((p.yields items).take j).foldlM p.accept receiver = .ok receiver')
    (refuses : p.accept receiver' b = .error f)
    (last : (p.calls receiver items).getLast? = some (.offer receiver' b)) :
    Stops p receiver items receiver' f

theorem pack_eq_error_iff {receiver receiver' : σ} {items : List α} {f : Fault} :
    pack p receiver items = (receiver', .error f) ↔ p.Stops receiver items receiver' f := by
  rw [pack, packFrom_eq]
  constructor
  · intro h
    cases handed : handOver p.accept receiver
      (offers p.limit empty (screenFrom p.screen 0 items)) with
    | mk receiver'' outcome =>
      rw [handed] at h
      cases outcome with
      | error g =>
        obtain ⟨rfl, failed⟩ := Prod.mk.inj h
        obtain rfl := Except.error.inj failed
        obtain ⟨j, b, there, taken, refuses⟩ := handOver_eq_error_iff.1 handed
        have last := getLast?_callsFrom_of_refuses there taken refuses
        rw [← yields_eq] at there taken
        exact .atBatch there taken refuses last
      | ok =>
        obtain ⟨rfl, failed⟩ := Prod.mk.inj h
        obtain ⟨k, item, there, rejects, before⟩ := screenFrom_eq_error_iff.1 failed
        have last := getLast?_callsFrom_of_rejects there rejects before handed
        simp only [Nat.zero_add] at rejects before last
        have taken := handOver_eq_ok_iff.1 handed
        rw [offers_of_rejects there rejects before] at taken
        exact .atItem there rejects before taken last
  · rintro (⟨there, rejects, before, taken, -⟩ | ⟨there, taken, refuses, -⟩)
    · rw [← offers_of_rejects there rejects before] at taken
      have failed : (screenFrom p.screen 0 items).2 = .error f := by
        refine screenFrom_eq_error_iff.2 ⟨_, _, there, ?_, fun i x lt hx => ?_⟩
        · rwa [Nat.zero_add]
        · rw [Nat.zero_add]
          exact before i x lt hx
      rw [handOver_eq_ok_iff.2 taken, failed]
    · rw [yields_eq] at there taken
      rw [handOver_eq_error_iff.2 ⟨_, _, there, taken, refuses⟩]

end Batch

/-! ## Appends -/

namespace Store

/-- An append puts the rows of a window, all of them in order, after those of its table, or it stops
at the first row that fits into no batch and leaves the store as it was. -/
inductive AppendsWhole (s : Store) (w : Window) : Outcome Unit × Store → Prop where
  /-- All rows are appended, and no other table changes. -/
  | appended {s' : Store} (fits : ∀ row ∈ w.rows, (encodeRow row).size ≤ s.batchLimit)
    (table : s'.table w.path = (s.table w.path).append w w.rows)
    (others : ∀ p, p ≠ w.path → s'.table p = s.table p)
    (counts : s'.appends = s.appends + 1 ∧ s'.merges = s.merges) :
    AppendsWhole s w (.ok (), s')
  /-- No table and no count has changed. -/
  | stopped {k : Nat} {row : Row} (there : w.rows[k]? = some row)
    (large : s.batchLimit < (encodeRow row).size)
    (before : ∀ i x, i < k → w.rows[i]? = some x → (encodeRow x).size ≤ s.batchLimit) :
    AppendsWhole s w (.error (Batch.oversizeFault k (encodeRow row).size s.batchLimit), s)

/-- A store encodes every row, so a row that does not end the packing fits. -/
theorem fits_of_passes {limit index : Nat} {row : Row} (h : (packing limit).Passes index row) :
    (encodeRow row).size ≤ limit := by
  obtain ⟨encoding, encodes, skips⟩ := h
  obtain rfl := Except.ok.inj encodes
  exact Nat.le_of_not_lt fun large => by cases skips large

theorem append_error {s : Store} {w : Window} {f : Fault} (h : s.append w = .error f) :
    ∃ k row, w.rows[k]? = some row ∧ s.batchLimit < (encodeRow row).size ∧
      (∀ i x, i < k → w.rows[i]? = some x → (encodeRow x).size ≤ s.batchLimit) ∧
      f = Batch.oversizeFault k (encodeRow row).size s.batchLimit := by
  unfold append at h
  split at h
  · rename_i packed
    obtain rfl := Except.error.inj h
    rcases Batch.pack_eq_error_iff.1 packed with
      ⟨there, fails | ⟨encodes, large, -⟩, before, -, -⟩ | ⟨-, -, refuses, -⟩
    · cases fails
    · obtain rfl := Except.ok.inj encodes
      exact ⟨_, _, there, large, fun i x lt hx => fits_of_passes (before i x lt hx), rfl⟩
    · cases refuses
  · cases h

theorem fits_of_append {s s' : Store} {w : Window} (h : s.append w = .ok s') :
    ∀ row ∈ w.rows, (encodeRow row).size ≤ s.batchLimit := by
  unfold append at h
  split at h
  · cases h
  · rename_i packed
    rw [Batch.pack_gather (gathers_packing s.batchLimit).takes] at packed
    intro row mem
    obtain ⟨i, there⟩ := List.mem_iff_getElem?.1 mem
    exact fits_of_passes (Batch.passes_of_screenFrom (Prod.mk.inj packed).2 (row, i)
      (List.mem_zipIdx_iff_getElem?.2 there))

theorem appendsWhole (s : Store) (w : Window) : AppendsWhole s w (Destination.append s w) := by
  simp only [Destination.append]
  cases outcome : s.append w with
  | error f =>
    obtain ⟨k, row, there, large, before, rfl⟩ := append_error outcome
    exact .stopped there large before
  | ok s' =>
    refine .appended (fits_of_append outcome) (table_append_self outcome)
      (fun p ne => table_append_of_ne outcome ne) ?_
    obtain ⟨batches, rfl⟩ := append_ok outcome
    exact ⟨rfl, rfl⟩

end Store

namespace Batch

/-- A packing stops at the first failure.  It encodes the items in order, the call that fails is its
last one, and nothing but its calls counts.  So an append is whole or changes nothing. -/
theorem pack_stops_at_first_failure (p : Packing α σ) (receiver : σ) (items : List α) (s : Store)
    (w : Window) :
    (∀ receiver' f, pack p receiver items = (receiver', .error f) ↔
      p.Stops receiver items receiver' f) ∧
    (∃ n ≤ items.length, (p.calls receiver items).filterMap Call.index? = List.range n) ∧
    (∀ p' : Packing α σ, p'.limit = p.limit → p'.policy = p.policy →
      (∀ call ∈ p.calls receiver items, call.Agrees p p') →
      pack p' receiver items = pack p receiver items) ∧
    s.AppendsWhole w (Destination.append s w) := by
  refine ⟨fun _ _ => pack_eq_error_iff, ?_, fun _ limit policy agrees => ?_, s.appendsWhole w⟩
  · simp only [List.range_eq_range']
    exact indices_callsFrom p 0 empty receiver items
  · exact packFrom_eq_of_agrees limit policy agrees

end Batch

end ChangeCapture
