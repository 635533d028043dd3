import ChangeCapture.Batch

/-!
# How items are packed

A packing screens its items one after the other: an item is encoded, left out, or
ends the packing with a fault (`Packing.screen`).  The encoded items are cut into
batches (`cut`), and these are handed over to the receiver, until it refuses one
(`handOver`).  `packFrom_eq` says that this is all that a packing does.

So what is offered does not depend on the receiver (`Packing.yields`), and if no
item is left out and every batch is taken, the batches hold the items in order
(`items_pack`).
-/

namespace ChangeCapture.Batch

variable {α : Type} {σ : Type}

theorem entries_add (b : Batch α) (item : α) (encoding : ByteArray) :
    (b.add item encoding).entries = b.entries ++ [(item, encoding)] := rfl

theorem byteSize_add (b : Batch α) (item : α) (encoding : ByteArray) :
    (b.add item encoding).byteSize = b.byteSize + encoding.size := by
  simp [byteSize, encodings, add]

/-! ## Screening -/

/-- What becomes of an item: its encoding, or nothing if it is left out. -/
def Packing.screen (p : Packing α σ) (index : Nat) (item : α) : Outcome (Option ByteArray) :=
  match p.encode index item with
  | .error f => .error (encodingFault index f)
  | .ok encoding =>
    if p.limit < encoding.size then
      match p.policy with
      | .fail => .error (oversizeFault index encoding.size p.limit)
      | .skip => .ok none
    else .ok (some encoding)

/-- The items that are encoded, from an index on until one ends the packing, and the fault that it
ends with. -/
def screenFrom (screen : Nat → α → Outcome (Option ByteArray)) (index : Nat) :
    List α → List (α × ByteArray) × Outcome Unit
  | [] => ([], .ok ())
  | item :: rest =>
    match screen index item with
    | .error f => ([], .error f)
    | .ok none => screenFrom screen (index + 1) rest
    | .ok (some encoding) =>
      ((item, encoding) :: (screenFrom screen (index + 1) rest).1,
        (screenFrom screen (index + 1) rest).2)

/-- What a packing does with an item, told by what becomes of it. -/
theorem packFrom_cons (p : Packing α σ) (index : Nat) (current : Batch α) (receiver : σ) (item : α)
    (rest : List α) :
    packFrom p index current receiver (item :: rest) =
      match p.screen index item with
      | .error f => (receiver, .error f)
      | .ok none => packFrom p (index + 1) current receiver rest
      | .ok (some encoding) =>
        if p.limit < current.byteSize + encoding.size then
          match p.accept receiver current with
          | .error f => (receiver, .error f)
          | .ok receiver => packFrom p (index + 1) (empty.add item encoding) receiver rest
        else packFrom p (index + 1) (current.add item encoding) receiver rest := by
  rw [packFrom, Packing.screen]
  cases p.encode index item with
  | error f => rfl
  | ok encoding =>
    by_cases large : p.limit < encoding.size
    · cases p.policy <;> simp only [large, if_true]
    · cases p.accept receiver current <;> simp only [large, if_false]

/-! ## Cutting -/

/-- Cuts encoded items into batches, each as long as the limit allows: the batches that are
closed, and the one that is still open. -/
def cut (limit : Nat) (current : Batch α) : List (α × ByteArray) → List (Batch α) × Batch α
  | [] => ([], current)
  | e :: rest =>
    if limit < current.byteSize + e.2.size then
      (current :: (cut limit (empty.add e.1 e.2) rest).1, (cut limit (empty.add e.1 e.2) rest).2)
    else cut limit (current.add e.1 e.2) rest

/-- The batch, if it has items. -/
def filled (b : Batch α) : List (Batch α) := if b.entries.isEmpty then [] else [b]

/-- The batches that a packing offers if the receiver takes each of them. -/
def offers (limit : Nat) (current : Batch α) (screened : List (α × ByteArray) × Outcome Unit) :
    List (Batch α) :=
  (cut limit current screened.1).1 ++
    match screened.2 with
    | .ok () => (cut limit current screened.1).2.filled
    | .error _ => []

theorem offers_cons (p : Packing α σ) (index : Nat) (current : Batch α) (item : α)
    (rest : List α) :
    offers p.limit current (screenFrom p.screen index (item :: rest)) =
      match p.screen index item with
      | .error _ => []
      | .ok none => offers p.limit current (screenFrom p.screen (index + 1) rest)
      | .ok (some encoding) =>
        if p.limit < current.byteSize + encoding.size then
          current ::
            offers p.limit (empty.add item encoding) (screenFrom p.screen (index + 1) rest)
        else
          offers p.limit (current.add item encoding) (screenFrom p.screen (index + 1) rest) := by
  cases screened : p.screen index item with
  | error f => simp only [screenFrom, screened, offers, cut, List.append_nil]
  | ok kept =>
    cases kept with
    | none => simp only [screenFrom, screened]
    | some encoding =>
      simp only [screenFrom, screened, offers, cut]
      split <;> rfl

/-! ## Handing over -/

/-- Hands batches over one by one, until one is refused. -/
def handOver (accept : σ → Batch α → Outcome σ) (receiver : σ) : List (Batch α) → σ × Outcome Unit
  | [] => (receiver, .ok ())
  | b :: rest =>
    match accept receiver b with
    | .ok receiver => handOver accept receiver rest
    | .error f => (receiver, .error f)

/-- A packing offers what is cut from the encoded items.  It ends as the receiver does, or, if that
takes everything, as the screening does. -/
theorem packFrom_eq (p : Packing α σ) (index : Nat) (current : Batch α) (receiver : σ)
    (items : List α) :
    packFrom p index current receiver items =
      match handOver p.accept receiver
        (offers p.limit current (screenFrom p.screen index items)) with
      | (receiver, .error f) => (receiver, .error f)
      | (receiver, .ok ()) => (receiver, (screenFrom p.screen index items).2) := by
  induction items generalizing index current receiver with
  | nil =>
    simp only [packFrom, screenFrom, offers, cut, filled, List.nil_append]
    cases current.entries.isEmpty with
    | true => rfl
    | false =>
      simp only [Bool.false_eq_true, if_false, handOver]
      cases p.accept receiver current <;> rfl
  | cons item rest ih =>
    rw [packFrom_cons, offers_cons]
    cases screened : p.screen index item with
    | error f => simp only [screenFrom, screened, handOver]
    | ok kept =>
      cases kept with
      | none =>
        simp only [screenFrom, screened]
        exact ih (index + 1) current receiver
      | some encoding =>
        simp only [screenFrom, screened]
        by_cases exceeds : p.limit < current.byteSize + encoding.size
        · simp only [exceeds, if_true, handOver]
          cases p.accept receiver current with
          | error f => rfl
          | ok receiver => exact ih (index + 1) (empty.add item encoding) receiver
        · simp only [exceeds, if_false]
          exact ih (index + 1) (current.add item encoding) receiver

/-! ## Gathering -/

/-- The packing whose receiver takes every batch and keeps them all. -/
def Packing.gathering (p : Packing α σ) : Packing α (List (Batch α)) where
  limit := p.limit
  policy := p.policy
  encode := p.encode
  accept := fun batches b => .ok (batches ++ [b])

/-- The batches that a packing yields to a receiver that takes each of them. -/
def Packing.yields (p : Packing α σ) (items : List α) : List (Batch α) :=
  (pack p.gathering [] items).1

theorem handOver_gather (batches offered : List (Batch α)) :
    handOver (fun batches b => .ok (batches ++ [b])) batches offered =
      (batches ++ offered, .ok ()) := by
  induction offered generalizing batches with
  | nil => simp [handOver]
  | cons b rest ih => simp [handOver, ih]

/-- A receiver that takes every batch and keeps them all gets what is offered. -/
theorem pack_gather {p : Packing α (List (Batch α))}
    (takes : ∀ batches b, p.accept batches b = .ok (batches ++ [b])) (items : List α) :
    pack p [] items =
      (offers p.limit empty (screenFrom p.screen 0 items), (screenFrom p.screen 0 items).2) := by
  have accept : p.accept = fun batches b => .ok (batches ++ [b]) := funext fun _ => funext (takes _)
  rw [pack, packFrom_eq, accept, handOver_gather, List.nil_append]

theorem yields_eq (p : Packing α σ) (items : List α) :
    p.yields items = offers p.limit empty (screenFrom p.screen 0 items) := by
  rw [Packing.yields, pack_gather fun _ _ => rfl]
  rfl

/-! ## Nothing is lost -/

/-- The batches hold the encoded items in order. -/
theorem entries_cut (limit : Nat) (current : Batch α) (es : List (α × ByteArray)) :
    (cut limit current es).1.flatMap entries ++ (cut limit current es).2.entries =
      current.entries ++ es := by
  induction es generalizing current with
  | nil => simp [cut]
  | cons e rest ih =>
    simp only [cut]
    split
    · rw [List.flatMap_cons, List.append_assoc, ih]
      rfl
    · rw [ih, entries_add, List.append_assoc, List.singleton_append]

theorem entries_filled (b : Batch α) : b.filled.flatMap entries = b.entries := by
  unfold filled
  split
  · rename_i none
    rw [List.isEmpty_iff.1 none]
    rfl
  · simp

theorem entries_offers {limit : Nat} {current : Batch α}
    {screened : List (α × ByteArray) × Outcome Unit} (clean : screened.2 = .ok ()) :
    (offers limit current screened).flatMap entries = current.entries ++ screened.1 := by
  simp only [offers]
  rw [clean, List.flatMap_append, entries_filled, entries_cut]

theorem items_eq (batches : List (Batch α)) :
    batches.flatMap items = (batches.flatMap entries).map Prod.fst := by
  rw [List.map_flatMap]
  rfl

/-- An item that fits into no batch ends the packing, and a receiver gathers the batches. -/
structure Packing.Gathers (p : Packing α (List (Batch α))) : Prop where
  /-- No item is left out. -/
  fails : p.policy = .fail
  /-- Every batch is taken. -/
  takes : ∀ batches b, p.accept batches b = .ok (batches ++ [b])

/-- If no item is left out, every item is encoded or ends the packing. -/
theorem items_screenFrom {p : Packing α σ} (fails : p.policy = .fail) {index : Nat}
    {items : List α} (clean : (screenFrom p.screen index items).2 = .ok ()) :
    (screenFrom p.screen index items).1.map Prod.fst = items := by
  induction items generalizing index with
  | nil => rfl
  | cons item rest ih =>
    simp only [screenFrom] at clean ⊢
    cases screened : p.screen index item with
    | error f => simp [screened] at clean
    | ok kept =>
      cases kept with
      | none =>
        simp only [Packing.screen, fails] at screened
        split at screened
        · cases screened
        · split at screened <;> cases screened
      | some encoding =>
        simp only [screened] at clean
        rw [List.map_cons, ih clean]

/-- The batches hold all items in order. -/
theorem items_pack {p : Packing α (List (Batch α))} (gathers : p.Gathers) {items : List α}
    {batches : List (Batch α)} (h : pack p [] items = (batches, .ok ())) :
    batches.flatMap Batch.items = items := by
  rw [pack_gather gathers.takes] at h
  obtain ⟨rfl, clean⟩ := Prod.mk.inj h
  rw [items_eq, entries_offers clean]
  exact items_screenFrom gathers.fails clean

end ChangeCapture.Batch
