import ChangeCapture.Proofs.Batch
import Mathlib.Algebra.GroupWithZero.Nat
import Mathlib.Data.List.Chain

/-!
# Batches that cannot be longer

A list of batches is the greedy packing of some encoded items (`Greedy`) if it
holds them in order, no batch is empty or exceeds the limit, and the first item
of each batch would not have fitted into the one before it.  There is only one
such list (`Greedy.unique`).

If nothing fails, the batches that a packing hands over are the greedy packing of
the items that fit (`pack_greedy`).
-/

namespace ChangeCapture.Batch

variable {α : Type} {σ : Type} {limit : Nat}

/-- The greedy packing of encoded items. -/
structure Greedy (limit : Nat) (es : List (α × ByteArray)) (batches : List (Batch α)) : Prop where
  /-- The batches hold the items in order, each with its encoding. -/
  holds : batches.flatMap entries = es
  /-- No batch is empty. -/
  filled : ∀ b ∈ batches, b.entries ≠ []
  /-- No batch exceeds the limit. -/
  bounded : ∀ b ∈ batches, b.byteSize ≤ limit
  /-- The first item of the next batch would exceed it. -/
  maximal : batches.IsChain fun b next =>
    ∀ e ∈ next.entries.head?, limit < b.byteSize + e.2.size

/-! ## There is one -/

/-- The first batch goes on from the one that is open. -/
theorem head_cut (current : Batch α) (es : List (α × ByteArray)) :
    ∀ b ∈ ((cut limit current es).1 ++ [(cut limit current es).2]).head?,
      ∃ more, b.entries = current.entries ++ more := by
  induction es generalizing current with
  | nil =>
    rintro b ⟨⟩
    exact ⟨[], (List.append_nil _).symm⟩
  | cons e rest ih =>
    simp only [cut]
    split
    · rintro b ⟨⟩
      exact ⟨[], (List.append_nil _).symm⟩
    · intro b mem
      obtain ⟨more, same⟩ := ih (current.add e.1 e.2) b mem
      exact ⟨e :: more, by rw [same, entries_add, List.append_assoc]; rfl⟩

/-- What is cut from items that fit is packed greedily. -/
theorem greedy_cut {current : Batch α} {es : List (α × ByteArray)} (begun : current.entries ≠ [])
    (bounded : current.byteSize ≤ limit) (fits : ∀ e ∈ es, e.2.size ≤ limit) :
    Greedy limit (current.entries ++ es)
      ((cut limit current es).1 ++ [(cut limit current es).2]) := by
  induction es generalizing current with
  | nil =>
    have single : ∀ b ∈ [current], b = current := fun b mem => List.mem_singleton.1 mem
    refine ⟨by simp [cut], fun b mem => ?_, fun b mem => ?_, List.isChain_singleton _⟩
    · exact single b mem ▸ begun
    · exact single b mem ▸ bounded
  | cons e rest ih =>
    have next := fits e List.mem_cons_self
    have fits : ∀ e ∈ rest, e.2.size ≤ limit := fun e' mem => fits e' (List.mem_cons_of_mem e mem)
    simp only [cut]
    split
    · rename_i exceeds
      have size : (empty.add e.1 e.2 : Batch α).byteSize = e.2.size := by
        rw [byteSize_add]
        exact Nat.zero_add _
      have anew : (empty.add e.1 e.2 : Batch α).entries ≠ [] := List.cons_ne_nil _ _
      have tail := ih anew (size ▸ next) fits
      refine ⟨?_, ?_, ?_, ?_⟩
      · rw [List.cons_append, List.flatMap_cons, tail.holds]
        rfl
      · exact List.forall_mem_cons.2 ⟨begun, tail.filled⟩
      · exact List.forall_mem_cons.2 ⟨bounded, tail.bounded⟩
      · rw [List.cons_append, List.isChain_cons]
        refine ⟨fun b mem e' first => ?_, tail.maximal⟩
        obtain ⟨more, same⟩ := head_cut _ _ b mem
        rw [same] at first
        obtain rfl : e = e' := Option.some.inj first
        exact exceeds
    · rename_i under
      have begun : (current.add e.1 e.2).entries ≠ [] := by simp [entries_add]
      have grown := ih begun (by rw [byteSize_add]; omega) fits
      rwa [entries_add, List.append_assoc] at grown

/-- What a packing offers of items that fit is packed greedily. -/
theorem greedy_offers {es : List (α × ByteArray)} (fits : ∀ e ∈ es, e.2.size ≤ limit) :
    Greedy limit es (offers limit empty (es, .ok ())) := by
  cases es with
  | nil => exact ⟨rfl, nofun, nofun, List.isChain_nil⟩
  | cons e rest =>
    have first := fits e List.mem_cons_self
    have size : (empty : Batch α).byteSize + e.2.size = e.2.size := Nat.zero_add _
    have under : ¬ limit < (empty : Batch α).byteSize + e.2.size := by omega
    have begun : (empty.add e.1 e.2 : Batch α).entries ≠ [] := List.cons_ne_nil _ _
    have fits : ∀ e' ∈ rest, e'.2.size ≤ limit := fun e' mem => fits e' (List.mem_cons_of_mem e mem)
    have greedy := greedy_cut begun (by rw [byteSize_add]; omega) fits
    have open_ := greedy.filled _ (List.mem_append_right _ (List.mem_singleton_self _))
    simp only [offers, cut, under, if_false, Batch.filled, List.isEmpty_iff, open_]
    exact greedy

/-! ## There is only one -/

theorem byteSize_eq_sum (b : Batch α) : b.byteSize = (b.entries.map fun e => e.2.size).sum := by
  rw [byteSize, encodings, List.foldl_map, List.sum_eq_foldl, List.foldl_map]

/-- A batch within the limit holds no more than a batch of a greedy packing that it begins with. -/
theorem Greedy.none_more {es more rest' : List (α × ByteArray)} {b b' : Batch α}
    {rest : List (Batch α)} (h : Greedy limit es (b :: rest)) (bounded : b'.byteSize ≤ limit)
    (longer : b'.entries = b.entries ++ more)
    (after : rest.flatMap entries = more ++ rest') : more = [] := by
  cases more with
  | nil => rfl
  | cons e more =>
    cases rest with
    | nil => cases after
    | cons next _ =>
      obtain ⟨e', tail, begins⟩ := List.exists_cons_of_ne_nil
        (h.filled next (List.mem_cons_of_mem b List.mem_cons_self))
      rw [List.flatMap_cons, begins] at after
      obtain rfl : e' = e := (List.cons.inj after).1
      have exceeds := (List.isChain_cons_cons.1 h.maximal).1 e' (by rw [begins]; rfl)
      rw [byteSize_eq_sum, longer] at bounded
      rw [byteSize_eq_sum] at exceeds
      simp only [List.map_append, List.map_cons, List.sum_append, List.sum_cons] at bounded
      omega

theorem Greedy.tail {es : List (α × ByteArray)} {b : Batch α} {rest : List (Batch α)}
    (h : Greedy limit es (b :: rest)) : Greedy limit (rest.flatMap entries) rest where
  holds := rfl
  filled b' mem := h.filled b' (List.mem_cons_of_mem b mem)
  bounded b' mem := h.bounded b' (List.mem_cons_of_mem b mem)
  maximal := h.maximal.tail

theorem Greedy.unique {es : List (α × ByteArray)} {batches batches' : List (Batch α)}
    (h : Greedy limit es batches) (h' : Greedy limit es batches') : batches' = batches := by
  induction batches generalizing es batches' with
  | nil =>
    cases batches' with
    | nil => rfl
    | cons b' rest' =>
      have none := h'.holds.trans h.holds.symm
      exact absurd (List.append_eq_nil_iff.1 none).1 (h'.filled b' List.mem_cons_self)
  | cons b rest ih =>
    cases batches' with
    | nil =>
      have none := h.holds.trans h'.holds.symm
      exact absurd (List.append_eq_nil_iff.1 none).1 (h.filled b List.mem_cons_self)
    | cons b' rest' =>
      have both : b'.entries ++ rest'.flatMap entries = b.entries ++ rest.flatMap entries :=
        h'.holds.trans h.holds.symm
      have same : b'.entries = b.entries := by
        rcases List.append_eq_append_iff.1 both with ⟨more, longer, after⟩ | ⟨more, longer, after⟩
        · rw [longer, h'.none_more (h.bounded b List.mem_cons_self) longer after,
            List.append_nil]
        · rw [longer, h.none_more (h'.bounded b' List.mem_cons_self) longer after,
            List.append_nil]
      have tails : rest'.flatMap entries = rest.flatMap entries := by
        rw [same] at both
        exact List.append_cancel_left both
      obtain ⟨first⟩ := b
      obtain ⟨first'⟩ := b'
      obtain rfl : first' = first := same
      have greedy : Greedy limit (rest.flatMap entries) rest' := tails ▸ h'.tail
      rw [ih h.tail greedy]

/-! ## Packings in which nothing fails -/

/-- An item with its encoding, if that fits into a batch. -/
def Packing.fit (p : Packing α σ) (e : α × Nat) : Option (α × ByteArray) :=
  match p.encode e.2 e.1 with
  | .error _ => none
  | .ok encoding => if encoding.size ≤ p.limit then some (e.1, encoding) else none

/-- The items that fit into a batch, in order, each with its encoding. -/
def Packing.fitting (p : Packing α σ) (items : List α) : List (α × ByteArray) :=
  items.zipIdx.filterMap p.fit

/-- Nothing fails: neither an item nor the receiver, which becomes `take` of what it was. -/
structure Packing.Faultless (p : Packing α σ) (take : σ → Batch α → σ) (items : List α) : Prop where
  /-- Every item is encoded. -/
  encodes : ∀ i item, items[i]? = some item → ∃ encoding, p.encode i item = .ok encoding
  /-- Every item fits, or those that do not are left out. -/
  fits : p.policy = .fail → ∀ i item encoding, items[i]? = some item →
    p.encode i item = .ok encoding → encoding.size ≤ p.limit
  /-- Every batch is taken. -/
  takes : ∀ receiver b, p.accept receiver b = .ok (take receiver b)

theorem fit_of_screen {p : Packing α σ} {index : Nat} {item : α} {kept : Option ByteArray}
    (screened : p.screen index item = .ok kept) : p.fit (item, index) = kept.map (item, ·) := by
  simp only [Packing.screen, Packing.fit] at screened ⊢
  cases encoded : p.encode index item with
  | error f => simp [encoded] at screened
  | ok encoding =>
    simp only [encoded] at screened ⊢
    by_cases large : p.limit < encoding.size
    · rw [if_pos large] at screened
      rw [if_neg (by omega)]
      cases hp : p.policy with
      | fail => simp [hp] at screened
      | skip =>
        simp only [hp] at screened
        obtain rfl := Except.ok.inj screened
        rfl
    · rw [if_neg large] at screened
      rw [if_pos (by omega)]
      obtain rfl := Except.ok.inj screened
      rfl

theorem screenFrom_of_ok {p : Packing α σ} {items : List α} {index : Nat}
    (passes : ∀ e ∈ items.zipIdx index, ∃ kept, p.screen e.2 e.1 = .ok kept) :
    screenFrom p.screen index items = ((items.zipIdx index).filterMap p.fit, .ok ()) := by
  induction items generalizing index with
  | nil => rfl
  | cons item rest ih =>
    rw [List.zipIdx_cons, List.forall_mem_cons] at passes
    obtain ⟨⟨kept, screened⟩, passes⟩ := passes
    rw [List.zipIdx_cons, List.filterMap_cons, fit_of_screen screened]
    simp only [screenFrom, screened, ih passes]
    cases kept <;> rfl

theorem Packing.Faultless.screen {p : Packing α σ} {take : σ → Batch α → σ} {items : List α}
    (h : p.Faultless take items) {i : Nat} {item : α} (there : items[i]? = some item) :
    ∃ kept, p.screen i item = .ok kept := by
  obtain ⟨encoding, encoded⟩ := h.encodes i item there
  simp only [Packing.screen, encoded]
  by_cases large : p.limit < encoding.size
  · rw [if_pos large]
    cases hp : p.policy with
    | fail =>
      have := h.fits hp i item encoding there encoded
      omega
    | skip => exact ⟨_, rfl⟩
  · rw [if_neg large]
    exact ⟨_, rfl⟩

theorem mem_fitting {p : Packing α σ} {items : List α} {e : α × ByteArray}
    (mem : e ∈ p.fitting items) : e.2.size ≤ p.limit := by
  obtain ⟨x, -, fits⟩ := List.mem_filterMap.1 mem
  unfold Packing.fit at fits
  split at fits
  · cases fits
  · split at fits
    · obtain rfl := Option.some.inj fits
      assumption
    · cases fits

theorem handOver_take {accept : σ → Batch α → Outcome σ} {take : σ → Batch α → σ}
    (takes : ∀ receiver b, accept receiver b = .ok (take receiver b)) (receiver : σ)
    (batches : List (Batch α)) :
    handOver accept receiver batches = (batches.foldl take receiver, .ok ()) := by
  induction batches generalizing receiver with
  | nil => rfl
  | cons b rest ih =>
    simp only [handOver, takes]
    exact ih (take receiver b)

/-- If nothing fails, the receiver takes one batch after the other of the greedy packing of the
items that fit. -/
theorem pack_greedy {p : Packing α σ} {take : σ → Batch α → σ} {items : List α}
    (faultless : p.Faultless take items) (receiver : σ) :
    ∃ batches, pack p receiver items = (batches.foldl take receiver, .ok ()) ∧
      ∀ batches', Greedy p.limit (p.fitting items) batches' ↔ batches' = batches := by
  have screened : screenFrom p.screen 0 items = (p.fitting items, .ok ()) := by
    refine screenFrom_of_ok fun e mem => faultless.screen ?_
    exact List.mem_zipIdx_iff_getElem?.1 mem
  have greedy : Greedy p.limit (p.fitting items) (offers p.limit empty (p.fitting items, .ok ())) :=
    greedy_offers fun e mem => mem_fitting mem
  refine ⟨_, ?_, fun batches' => ⟨fun h => greedy.unique h, fun same => same ▸ greedy⟩⟩
  rw [pack, packFrom_eq, screened, handOver_take faultless.takes]

/-- Items that are encoded in as many bytes as they say, those of more than six bytes left out. -/
def samplePacking : Packing Nat (List (Batch Nat)) where
  limit := 6
  policy := .skip
  encode := fun _ size => .ok ⟨Array.replicate size 0⟩
  accept := fun batches b => .ok (batches ++ [b])

theorem pack_greedy_sample :
    samplePacking.Faultless (fun batches b => batches ++ [b]) [3, 8, 0, 3, 1] ∧
      (∃ batches, pack samplePacking [] [3, 8, 0, 3, 1] =
          (batches.foldl (fun batches b => batches ++ [b]) [], .ok ()) ∧
        ∀ batches', Greedy 6 (samplePacking.fitting [3, 8, 0, 3, 1]) batches' ↔
          batches' = batches) ∧
      (pack samplePacking [] [3, 8, 0, 3, 1]).1.map items = [[3, 0, 3], [1]] := by
  have faultless : samplePacking.Faultless (fun batches b => batches ++ [b]) [3, 8, 0, 3, 1] :=
    ⟨fun _ _ _ => ⟨_, rfl⟩, nofun, fun _ _ => rfl⟩
  exact ⟨faultless, pack_greedy faultless [], by decide⟩

end ChangeCapture.Batch
