import ChangeCapture.Proofs.Batch.Screening
import Mathlib.Data.List.Basic

/-!
# The calls of a packing

A packing encodes items and offers batches, one call after the other
(`Packing.calls`).  The items are encoded in order (`indices_callsFrom`), and the call
that fails is the last one.  Nothing but the answers to these calls counts
(`packFrom_eq_of_agrees`).
-/

namespace ChangeCapture.Batch

variable {α : Type} {σ : Type}

variable {p : Packing α σ}

/-! ## Calls -/

/-- A call of a packing. -/
inductive Call (α σ : Type) where
  /-- The item at an index is encoded. -/
  | encode (index : Nat) (item : α)
  /-- A batch is offered to the receiver. -/
  | offer (receiver : σ) (batch : Batch α)

/-- The calls of a packing from an index on, with a batch still open. -/
def callsFrom (p : Packing α σ) (index : Nat) (current : Batch α) (receiver : σ) :
    List α → List (Call α σ)
  | [] => current.filled.map (.offer receiver)
  | item :: rest =>
    .encode index item ::
      match p.screen index item with
      | .error _ => []
      | .ok none => callsFrom p (index + 1) current receiver rest
      | .ok (some encoding) =>
        if p.limit < current.byteSize + encoding.size then
          .offer receiver current ::
            match p.accept receiver current with
            | .error _ => []
            | .ok receiver => callsFrom p (index + 1) (empty.add item encoding) receiver rest
        else callsFrom p (index + 1) (current.add item encoding) receiver rest

/-- The calls of a packing in order. -/
def Packing.calls (p : Packing α σ) (receiver : σ) (items : List α) : List (Call α σ) :=
  callsFrom p 0 empty receiver items

/-- The index of the item that a call encodes. -/
def Call.index? : Call α σ → Option Nat
  | .encode index _ => some index
  | .offer _ _ => none

/-- The items are encoded once each and in order. -/
theorem indices_callsFrom (p : Packing α σ) (index : Nat) (current : Batch α) (receiver : σ)
    (items : List α) :
    ∃ n ≤ items.length, (callsFrom p index current receiver items).filterMap Call.index? =
      List.range' index n := by
  induction items generalizing index current receiver with
  | nil =>
    refine ⟨0, Nat.le_refl 0, ?_⟩
    simp only [callsFrom, filled]
    split <;> rfl
  | cons item rest ih =>
    have next : ∀ {calls : List (Call α σ)} {n : Nat}, n ≤ rest.length →
        calls.filterMap Call.index? = List.range' (index + 1) n →
        ∃ n ≤ (item :: rest).length, (Call.encode index item :: calls).filterMap Call.index? =
          List.range' index n := by
      intro calls n le same
      refine ⟨n + 1, Nat.succ_le_succ le, ?_⟩
      rw [List.filterMap_cons, same]
      rfl
    rw [callsFrom]
    cases p.screen index item with
    | error f => exact next (Nat.zero_le _) rfl
    | ok kept =>
      cases kept with
      | none =>
        obtain ⟨n, le, same⟩ := ih (index + 1) current receiver
        exact next le same
      | some encoding =>
        simp only
        split
        · cases p.accept receiver current with
          | error f => exact next (Nat.zero_le _) rfl
          | ok receiver =>
            obtain ⟨n, le, same⟩ := ih (index + 1) (empty.add item encoding) receiver
            exact next le (by rwa [List.filterMap_cons])
        · obtain ⟨n, le, same⟩ := ih (index + 1) (current.add item encoding) receiver
          exact next le same

/-- Two packings answer a call alike. -/
def Call.Agrees (p p' : Packing α σ) : Call α σ → Prop
  | .encode index item => p'.encode index item = p.encode index item
  | .offer receiver b => p'.accept receiver b = p.accept receiver b

/-- A packing is settled by the answers to its calls. -/
theorem packFrom_eq_of_agrees {p' : Packing α σ} (limit : p'.limit = p.limit)
    (policy : p'.policy = p.policy) {index : Nat} {current : Batch α} {receiver : σ}
    {items : List α} (agrees : ∀ call ∈ callsFrom p index current receiver items,
      call.Agrees p p') :
    packFrom p' index current receiver items = packFrom p index current receiver items := by
  induction items generalizing index current receiver with
  | nil =>
    simp only [packFrom]
    by_cases none : current.entries.isEmpty
    · simp only [none, if_true]
    · have accept : p'.accept receiver current = p.accept receiver current :=
        agrees (.offer receiver current) (by simp [callsFrom, filled, none])
      simp only [accept]
  | cons item rest ih =>
    rw [callsFrom, List.forall_mem_cons] at agrees
    obtain ⟨encode, agrees⟩ := agrees
    have encode : p'.encode index item = p.encode index item := encode
    have screen : p'.screen index item = p.screen index item := by
      simp only [Packing.screen, encode, limit, policy]
    rw [packFrom_cons, packFrom_cons, screen, limit]
    cases screened : p.screen index item with
    | error f => rfl
    | ok kept =>
      simp only [screened] at agrees
      cases kept with
      | none => exact ih agrees
      | some encoding =>
        simp only at agrees ⊢
        by_cases exceeds : p.limit < current.byteSize + encoding.size
        · simp only [exceeds, if_true, List.forall_mem_cons] at agrees ⊢
          have accept : p'.accept receiver current = p.accept receiver current := agrees.1
          rw [accept]
          cases taken : p.accept receiver current with
          | error f => rfl
          | ok receiver =>
            simp only [taken] at agrees
            exact ih agrees.2
        · simp only [exceeds, if_false] at agrees ⊢
          exact ih agrees

/-- The item that is rejected is the last one that is encoded, and no batch is offered after it. -/
theorem getLast?_callsFrom_of_rejects {index k : Nat} {current : Batch α}
    {receiver receiver' : σ} {items : List α} {item : α} {f : Fault}
    (there : items[k]? = some item) (rejects : p.Rejects (index + k) item f)
    (before : ∀ i x, i < k → items[i]? = some x → p.Passes (index + i) x)
    (taken : handOver p.accept receiver (offers p.limit current (screenFrom p.screen index items)) =
      (receiver', .ok ())) :
    (callsFrom p index current receiver items).getLast? = some (.encode (index + k) item) := by
  induction items generalizing index k current receiver with
  | nil => cases there
  | cons first rest ih =>
    cases k with
    | zero =>
      obtain rfl := Option.some.inj there
      have failed := screen_eq_error_iff.2 rejects
      rw [Nat.add_zero] at failed
      simp [callsFrom, failed]
    | succ k =>
      obtain ⟨kept, screened⟩ := screen_isOk_iff.2 (before 0 first (by omega) rfl)
      rw [Nat.add_zero] at screened
      have later : index + (k + 1) = index + 1 + k := by omega
      rw [later] at rejects ⊢
      have before : ∀ i x, i < k → rest[i]? = some x → p.Passes (index + 1 + i) x := by
        intro i x lt hx
        rw [Nat.add_assoc, Nat.add_comm 1 i]
        exact before (i + 1) x (by omega) hx
      rw [offers_cons, screened] at taken
      rw [callsFrom, screened]
      refine List.mem_getLast?_cons ?_
      cases kept with
      | none => exact ih there rejects before taken
      | some encoding =>
        simp only at taken ⊢
        by_cases exceeds : p.limit < current.byteSize + encoding.size
        · simp only [exceeds, if_true, handOver] at taken ⊢
          refine List.mem_getLast?_cons ?_
          cases accepted : p.accept receiver current with
          | error g => simp [accepted] at taken
          | ok receiver =>
            rw [accepted] at taken
            exact ih there rejects before taken
        · simp only [exceeds, if_false] at taken ⊢
          exact ih there rejects before taken

/-- The batch that is refused is the last one that is offered, and no item is encoded after it. -/
theorem getLast?_callsFrom_of_refuses {index j : Nat} {current b : Batch α}
    {receiver receiver' : σ} {items : List α} {f : Fault}
    (there : (offers p.limit current (screenFrom p.screen index items))[j]? = some b)
    (taken : ((offers p.limit current (screenFrom p.screen index items)).take j).foldlM
      p.accept receiver = .ok receiver')
    (refuses : p.accept receiver' b = .error f) :
    (callsFrom p index current receiver items).getLast? = some (.offer receiver' b) := by
  induction items generalizing index j current receiver with
  | nil =>
    simp only [screenFrom, offers, cut, List.nil_append] at there taken
    simp only [callsFrom]
    revert there taken
    unfold filled
    split
    · intro there
      cases there
    · intro there taken
      cases j with
      | zero =>
        obtain rfl := Option.some.inj there
        obtain rfl := Except.ok.inj taken
        rfl
      | succ j => cases there
  | cons item rest ih =>
    rw [offers_cons] at there taken
    rw [callsFrom]
    cases screened : p.screen index item with
    | error g =>
      rw [screened] at there
      cases there
    | ok kept =>
      rw [screened] at there taken
      refine List.mem_getLast?_cons ?_
      cases kept with
      | none => exact ih there taken
      | some encoding =>
        simp only at there taken ⊢
        by_cases exceeds : p.limit < current.byteSize + encoding.size
        · simp only [exceeds, if_true] at there taken ⊢
          cases j with
          | zero =>
            obtain rfl := Option.some.inj there
            obtain rfl := Except.ok.inj taken
            rw [refuses]
            rfl
          | succ j =>
            rw [List.take_succ_cons, List.foldlM_cons] at taken
            refine List.mem_getLast?_cons ?_
            cases accepted : p.accept receiver current with
            | error g =>
              rw [accepted] at taken
              cases taken
            | ok receiver =>
              rw [accepted] at taken
              exact ih there taken
        · simp only [exceeds, if_false] at there taken ⊢
          exact ih there taken

end ChangeCapture.Batch
