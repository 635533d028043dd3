import ChangeCapture.Fault

/-!
# Batches

Items are packed in order into batches of bounded size.  A batch is closed as
soon as the next item does not fit into it, so each batch is as long as it can
be.  A closed batch goes to a receiver that may refuse it.
-/

namespace ChangeCapture

/-- Items with their encodings. -/
structure Batch (α : Type) where
  /-- The items in order, each with its encoding. -/
  entries : List (α × ByteArray)

/-- What happens to an item that fits into no batch. -/
inductive OversizePolicy where
  /-- The packing ends with a fault. -/
  | fail
  /-- The item is left out. -/
  | skip
  deriving DecidableEq, Repr, Inhabited

namespace Batch

variable {α : Type} {σ : Type}

/-- The batch without items. -/
def empty : Batch α := ⟨[]⟩

/-- The items in order. -/
def items (b : Batch α) : List α := b.entries.map Prod.fst

/-- The encodings in order. -/
def encodings (b : Batch α) : List ByteArray := b.entries.map Prod.snd

/-- The number of encoded bytes. -/
def byteSize (b : Batch α) : Nat := b.encodings.foldl (fun n bytes => n + bytes.size) 0

/-- Adds an item at the end. -/
def add (b : Batch α) (item : α) (encoding : ByteArray) : Batch α :=
  ⟨b.entries ++ [(item, encoding)]⟩

/-- The fault of an item that cannot be encoded. -/
def encodingFault (index : Nat) (f : Fault) : Fault :=
  .single .batchEncodeFailed "Failed to encode batch item"
    (some ("failed to encode item " ++ toString index ++ ": " ++ f.render Fault.somewhere))
    (some (f.render Fault.somewhere))

/-- The fault of an item that fits into no batch. -/
def oversizeFault (index size limit : Nat) : Fault :=
  .detailed .batchItemTooLarge "Batch item exceeds the maximum batch size"
    ("item " ++ toString index ++ " is larger (" ++ toString size ++ " bytes) than max size ("
      ++ toString limit ++ " bytes)")

/-- How items are packed. -/
structure Packing (α : Type) (σ : Type) where
  /-- The greatest size of a batch. -/
  limit : Nat
  /-- What happens to an item that fits into no batch. -/
  policy : OversizePolicy
  /-- The encoding of the item at an index. -/
  encode : Nat → α → Outcome ByteArray
  /-- What becomes of the receiver when it takes a batch. -/
  accept : σ → Batch α → Outcome σ

/-- Packs the items from an index on, with a batch still open.  The receiver is as it was when it
took the last batch. -/
def packFrom (p : Packing α σ) (index : Nat) (current : Batch α) (receiver : σ) :
    List α → σ × Outcome Unit
  | [] =>
    if current.entries.isEmpty then (receiver, .ok ())
    else
      match p.accept receiver current with
      | .ok receiver => (receiver, .ok ())
      | .error f => (receiver, .error f)
  | item :: rest =>
    match p.encode index item with
    | .error f => (receiver, .error (encodingFault index f))
    | .ok encoding =>
      if p.limit < encoding.size then
        match p.policy with
        | .fail => (receiver, .error (oversizeFault index encoding.size p.limit))
        | .skip => packFrom p (index + 1) current receiver rest
      else if p.limit < current.byteSize + encoding.size then
        match p.accept receiver current with
        | .error f => (receiver, .error f)
        | .ok receiver => packFrom p (index + 1) (empty.add item encoding) receiver rest
      else packFrom p (index + 1) (current.add item encoding) receiver rest

/-- Packs items and hands the batches to a receiver. -/
def pack (p : Packing α σ) (receiver : σ) (items : List α) : σ × Outcome Unit :=
  packFrom p 0 empty receiver items

end Batch

end ChangeCapture
