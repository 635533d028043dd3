import ChangeCapture.Proofs.Batch

/-!
# What ends a packing

An item ends a packing if it is rejected: it cannot be encoded, or it fits into no
batch and must not be left out (`Packing.Rejects`).  The screening ends at the first
such item (`screenFrom_eq_error_iff`).  A batch ends a packing if the receiver
refuses it, and the handing over ends at the first such batch
(`handOver_eq_error_iff`).
-/

namespace ChangeCapture.Batch

variable {α : Type} {σ : Type}

/-! ## Items that are rejected -/

/-- The item at an index ends a packing with a fault that names the index. -/
inductive Packing.Rejects (p : Packing α σ) (index : Nat) (item : α) : Fault → Prop where
  /-- The item cannot be encoded. -/
  | unencodable {f : Fault} (fails : p.encode index item = .error f) :
    Rejects p index item (encodingFault index f)
  /-- The item fits into no batch and must not be left out. -/
  | oversized {encoding : ByteArray} (encodes : p.encode index item = .ok encoding)
    (large : p.limit < encoding.size) (fails : p.policy = .fail) :
    Rejects p index item (oversizeFault index encoding.size p.limit)

/-- The item at an index is encoded, and it fits into a batch or is left out. -/
def Packing.Passes (p : Packing α σ) (index : Nat) (item : α) : Prop :=
  ∃ encoding, p.encode index item = .ok encoding ∧ (p.limit < encoding.size → p.policy = .skip)

variable {p : Packing α σ}

theorem screen_eq_error_iff {index : Nat} {item : α} {f : Fault} :
    p.screen index item = .error f ↔ p.Rejects index item f := by
  unfold Packing.screen
  constructor
  · intro h
    split at h
    · rename_i fails
      obtain rfl := Except.error.inj h
      exact .unencodable fails
    · rename_i encodes
      split at h
      · split at h
        · obtain rfl := Except.error.inj h
          exact .oversized encodes ‹_› ‹_›
        · cases h
      · cases h
  · rintro (fails | ⟨encodes, large, fails⟩)
    · rw [fails]
    · simp only [encodes, large, fails, if_true]

theorem screen_isOk_iff {index : Nat} {item : α} :
    (∃ kept, p.screen index item = .ok kept) ↔ p.Passes index item := by
  unfold Packing.screen Packing.Passes
  cases p.encode index item with
  | error f => simp
  | ok encoding =>
    by_cases large : p.limit < encoding.size
    · cases p.policy <;> simp [large]
    · simp [large]

/-- The screening ends with a fault at the first item that is rejected. -/
theorem screenFrom_eq_error_iff {index : Nat} {items : List α} {f : Fault} :
    (screenFrom p.screen index items).2 = .error f ↔
      ∃ k item, items[k]? = some item ∧ p.Rejects (index + k) item f ∧
        ∀ i x, i < k → items[i]? = some x → p.Passes (index + i) x := by
  induction items generalizing index with
  | nil => simp [screenFrom]
  | cons item rest ih =>
    have next : ∀ kept, p.screen index item = .ok kept →
        ((screenFrom p.screen (index + 1) rest).2 = .error f ↔
          ∃ k x, (item :: rest)[k]? = some x ∧ p.Rejects (index + k) x f ∧
            ∀ i x, i < k → (item :: rest)[i]? = some x → p.Passes (index + i) x) := by
      intro kept screened
      have passes := screen_isOk_iff.1 ⟨kept, screened⟩
      rw [ih]
      constructor
      · rintro ⟨k, x, there, rejects, before⟩
        refine ⟨k + 1, x, there, by rwa [Nat.add_right_comm] at rejects, ?_⟩
        rintro (_ | i) y lt hy
        · obtain rfl := Option.some.inj hy
          exact passes
        · rw [← Nat.add_assoc, Nat.add_right_comm]
          exact before i y (by omega) hy
      · rintro ⟨k | k, x, there, rejects, before⟩
        · obtain rfl := Option.some.inj there
          have failed := screen_eq_error_iff.2 rejects
          rw [Nat.add_zero, screened] at failed
          cases failed
        · refine ⟨k, x, there, by rwa [Nat.add_right_comm], fun i y lt hy => ?_⟩
          rw [Nat.add_right_comm]
          exact before (i + 1) y (by omega) hy
    cases screened : p.screen index item with
    | error g =>
      simp only [screenFrom, screened, Except.error.injEq]
      constructor
      · rintro rfl
        exact ⟨0, item, rfl, screen_eq_error_iff.1 screened, by omega⟩
      · rintro ⟨k | k, x, there, rejects, before⟩
        · obtain rfl := Option.some.inj there
          have failed := screen_eq_error_iff.2 rejects
          rw [Nat.add_zero, screened] at failed
          exact Except.error.inj failed
        · obtain ⟨kept, passed⟩ := screen_isOk_iff.2 (before 0 item (by omega) rfl)
          rw [Nat.add_zero, screened] at passed
          cases passed
    | ok kept =>
      cases kept with
      | none =>
        simp only [screenFrom, screened]
        exact next none screened
      | some encoding =>
        simp only [screenFrom, screened]
        exact next (some encoding) screened

/-- If the screening ends without a fault, all items pass. -/
theorem passes_of_screenFrom {index : Nat} {items : List α}
    (clean : (screenFrom p.screen index items).2 = .ok ()) :
    ∀ e ∈ items.zipIdx index, p.Passes e.2 e.1 := by
  induction items generalizing index with
  | nil => nofun
  | cons item rest ih =>
    rw [List.zipIdx_cons, List.forall_mem_cons]
    simp only [screenFrom] at clean
    cases screened : p.screen index item with
    | error f => simp [screened] at clean
    | ok kept =>
      refine ⟨screen_isOk_iff.1 ⟨kept, screened⟩, ih ?_⟩
      cases kept <;> simpa only [screened] using clean

/-! ## Batches that are refused -/

theorem handOver_eq_ok_iff {accept : σ → Batch α → Outcome σ} {receiver receiver' : σ}
    {batches : List (Batch α)} :
    handOver accept receiver batches = (receiver', .ok ()) ↔
      batches.foldlM accept receiver = .ok receiver' := by
  induction batches generalizing receiver with
  | nil => simp [handOver, pure, Except.pure]
  | cons b rest ih =>
    rw [List.foldlM_cons, handOver]
    cases accept receiver b with
    | error f => simp [bind, Except.bind]
    | ok next => exact ih

theorem handOver_eq_error_iff {accept : σ → Batch α → Outcome σ} {receiver receiver' : σ}
    {batches : List (Batch α)} {f : Fault} :
    handOver accept receiver batches = (receiver', .error f) ↔
      ∃ j b, batches[j]? = some b ∧ (batches.take j).foldlM accept receiver = .ok receiver' ∧
        accept receiver' b = .error f := by
  induction batches generalizing receiver with
  | nil => simp [handOver]
  | cons b rest ih =>
    rw [handOver]
    cases taken : accept receiver b with
    | error g =>
      constructor
      · rintro ⟨⟩
        exact ⟨0, b, rfl, rfl, taken⟩
      · rintro ⟨j | j, x, there, before, refuses⟩
        · obtain rfl := Option.some.inj there
          obtain rfl := Except.ok.inj before
          rw [taken] at refuses
          rw [Except.error.inj refuses]
        · rw [List.take_succ_cons, List.foldlM_cons, taken] at before
          cases before
    | ok next =>
      simp only
      rw [ih]
      constructor
      · rintro ⟨j, x, there, before, refuses⟩
        refine ⟨j + 1, x, there, ?_, refuses⟩
        rw [List.take_succ_cons, List.foldlM_cons, taken]
        exact before
      · rintro ⟨j | j, x, there, before, refuses⟩
        · obtain rfl := Option.some.inj there
          obtain rfl := Except.ok.inj before
          rw [taken] at refuses
          cases refuses
        · rw [List.take_succ_cons, List.foldlM_cons, taken] at before
          exact ⟨j, x, there, before, refuses⟩

end ChangeCapture.Batch
