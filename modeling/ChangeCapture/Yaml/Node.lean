/-!
# Nodes of YAML

What a document in YAML holds.
-/

namespace ChangeCapture.Yaml

/-- The name of a field. -/
inductive Name where
  /-- A text. -/
  | text (s : String)
  /-- An integer, which is not the same name as the text of it. -/
  | integer (n : Int)
  deriving DecidableEq, Repr

/-- A node. -/
inductive Node where
  /-- Nothing. -/
  | null
  /-- A truth value. -/
  | flag (b : Bool)
  /-- An integer of 64 bits. -/
  | integer (n : Int)
  /-- Another number, as it is written. -/
  | real (s : String)
  /-- A text. -/
  | text (s : String)
  /-- A scalar that is not what its tag says. -/
  | bad
  /-- A list. -/
  | list (items : List Node)
  /-- A table. -/
  | table (fields : List (Name × Node))
  deriving Inhabited

namespace Node

/-- The node as the name of a field. -/
def name? : Node → Option Name
  | text s => some (.text s)
  | integer n => some (.integer n)
  | _ => none

/-- Whether the node is a scalar that is not what its tag says. -/
def isBad : Node → Bool
  | bad => true
  | _ => false

/-- The fields of names and values in turn.  A bad node is no name and is passed over, and so is a
last name without a value. -/
def fields? : List Node → Option (List (Name × Node))
  | [] => some []
  | k :: rest =>
    if k.isBad then fields? rest
    else match rest with
      | [] => some []
      | v :: rest => do some ((← k.name?, v) :: (← fields? rest))

/-- The table of names and values in turn.  No name may stand for two fields. -/
def table? (nodes : List Node) : Option Node := do
  let fields ← fields? nodes
  if (fields.map Prod.fst).Nodup then some (.table fields) else none

end Node

end ChangeCapture.Yaml
