import ChangeCapture.Yaml.Scalar
import ChangeCapture.Yaml.Tokens

/-!
# Documents of YAML

The node that a text holds.  A reader takes the tokens that are left and the
nodes that have names, and returns what it read with both after it.  Each item
or field takes a token, and at most three readers lead from one to the next, so
the fuel is three times the number of tokens.
-/

namespace ChangeCapture.Yaml

/-! ## What is left to be read -/

/-- What is left of the tokens, and what is known of the nodes before. -/
structure Feed where
  /-- The tokens that are left. -/
  tokens : List Token
  /-- What the handles of tags stand for. -/
  stems : List (String × String)
  /-- The names of nodes, latest first.  The same name may be used again. -/
  anchors : List String
  /-- The nodes that have names and are complete, by the number of names before. -/
  nodes : List (Nat × Node)

namespace Feed

/-- The next token. -/
def head? (f : Feed) : Option Token := f.tokens.head?

/-- Whether the next token is one of some. -/
def isAt (f : Feed) (ts : List Token) : Bool := f.head?.any ts.contains

/-- Drops the next token. -/
def drop (f : Feed) : Feed := { f with tokens := f.tokens.tail }

/-- Remembers a node by the number of its name. -/
def remember (number : Option Nat) (v : Node) (f : Feed) : Feed :=
  match number with
  | some n => { f with nodes := (n, v) :: f.nodes }
  | none => f

/-- The node of a name.  A node that is not complete is bad. -/
def lookup? (name : String) (f : Feed) : Option Node :=
  match f.anchors.dropWhile (· != name) with
  | _ :: before => some ((f.nodes.lookup before.length).getD .bad)
  | [] => none

end Feed

/-- What is read of some tokens, with what is left. -/
abbrev NodeReader (α : Type) := Feed → Option (α × Feed)

/-! ## What stands before nodes -/

/-- Reads an anchor, if there is one, and returns its number. -/
def anchorNumber : Feed → Option Nat × Feed := fun f =>
  match f.tokens with
  | .anchor name :: rest =>
    (some f.anchors.length, { f with tokens := rest, anchors := name :: f.anchors })
  | _ => (none, f)

/-- Reads a tag, if there is one. -/
def optionalTag? : NodeReader (Option Tagging) := fun f =>
  match f.tokens with
  | .tag handle suffix :: rest =>
    (tagging? f.stems handle suffix).map fun t => (some t, { f with tokens := rest })
  | _ => some (none, f)

/-- Reads an anchor and a tag in any order, if they are there. -/
def properties? : NodeReader (Option Nat × Option Tagging) := fun f => do
  let (anchor, f) := anchorNumber f
  let (tag, f) ← optionalTag? f
  let (anchor, f) := if anchor.isSome then (anchor, f) else anchorNumber f
  some ((anchor, tag), f)

/-! ## Nodes -/

mutual

/-- Reads a node.  The flags tell whether it may be in block style, and whether it may be a list
that is not indented. -/
def node? (inBlock mayBeFlat : Bool) : Nat → NodeReader Node
  | 0, _ => none
  | fuel + 1, f =>
    match f.tokens with
    | .alias name :: rest => (f.lookup? name).map fun v => (v, { f with tokens := rest })
    | _ => do
      let ((anchor, tag), f) ← properties? f
      let (v, f) ← match f.tokens with
        | .plain s :: rest => some (.ofScalar tag s, { f with tokens := rest })
        | .text s :: rest => some (.text s, { f with tokens := rest })
        | .flowList :: rest => flowItems? fuel true { f with tokens := rest }
        | .flowTable :: rest => do
          let (vs, f) ← flowFields? fuel true { f with tokens := rest }
          some (← Node.table? vs, f)
        | _ =>
          if inBlock && f.isAt [.blockList] then items? fuel f.drop
          else if inBlock && f.isAt [.blockTable] then do
            let (vs, f) ← fields? fuel f.drop
            some (← Node.table? vs, f)
          else if mayBeFlat && f.isAt [.dash] then flatItems? fuel f
          else if anchor.isSome || tag.isSome then some (.ofScalar tag "", f)
          else none
      some (v, f.remember anchor v)

/-- Reads a node, or nothing before one of some tokens. -/
def optionalNode? (inBlock mayBeFlat : Bool) (before : List Token) : Nat → NodeReader Node
  | 0, _ => none
  | fuel + 1, f =>
    if f.isAt before then some (.null, f) else node? inBlock mayBeFlat fuel f

/-- Reads the items of a list in block style up to its end. -/
def items? : Nat → NodeReader Node
  | 0, _ => none
  | fuel + 1, f =>
    if f.isAt [.blockEnd] then some (.list [], f.drop)
    else if f.isAt [.dash] then do
      let (v, f) ← optionalNode? true false [.dash, .blockEnd] fuel f.drop
      match ← items? fuel f with
      | (.list vs, f) => some (.list (v :: vs), f)
      | _ => none
    else none

/-- Reads the items of a list that is not indented. -/
def flatItems? : Nat → NodeReader Node
  | 0, _ => none
  | fuel + 1, f =>
    if f.isAt [.dash] then do
      let (v, f) ← optionalNode? true false [.dash, .name, .value, .blockEnd] fuel f.drop
      match ← flatItems? fuel f with
      | (.list vs, f) => some (.list (v :: vs), f)
      | _ => none
    else some (.list [], f)

/-- Reads the names and values of a table in block style up to its end. -/
def fields? : Nat → NodeReader (List Node)
  | 0, _ => none
  | fuel + 1, f =>
    if f.isAt [.blockEnd] then some ([], f.drop)
    else if f.isAt [.name, .value] then do
      let ends := [.name, .value, .blockEnd]
      let (k, f) ←
        if f.isAt [.name] then optionalNode? true true ends fuel f.drop else some (.null, f)
      let (v, f) ←
        if f.isAt [.value] then optionalNode? true true ends fuel f.drop else some (.null, f)
      let (vs, f) ← fields? fuel f
      some (k :: v :: vs, f)
    else none

/-- Reads the items of a list in brackets up to its bracket.  The flag tells whether the next item
is the first. -/
def flowItems? : Nat → Bool → NodeReader Node
  | 0, _, _ => none
  | fuel + 1, isFirst, f =>
    if f.isAt [.flowListEnd] then some (.list [], f.drop)
    else if !isFirst && !f.isAt [.comma] then none
    else
      let f := if isFirst then f else f.drop
      if f.isAt [.flowListEnd] then some (.list [], f.drop)
      else do
        let (v, f) ← if f.isAt [.name] then pair? fuel f.drop else node? false false fuel f
        match ← flowItems? fuel false f with
        | (.list vs, f) => some (.list (v :: vs), f)
        | _ => none

/-- Reads the name and the value of a table without braces. -/
def pair? : Nat → NodeReader Node
  | 0, _ => none
  | fuel + 1, f => do
    let (k, f) ←
      if f.isAt [.value, .comma, .flowListEnd] then some (.null, f.drop)
      else node? false false fuel f
    let (v, f) ←
      if f.isAt [.value] then optionalNode? false false [.comma, .flowListEnd] fuel f.drop
      else some (.null, f)
    some (← Node.table? [k, v], f)

/-- Reads the names and values of a table in braces up to its brace.  The flag tells whether the
next field is the first. -/
def flowFields? : Nat → Bool → NodeReader (List Node)
  | 0, _, _ => none
  | fuel + 1, isFirst, f =>
    if f.isAt [.flowTableEnd] then some ([], f.drop)
    else if !isFirst && !f.isAt [.comma] then none
    else
      let f := if isFirst then f else f.drop
      if f.isAt [.flowTableEnd] then some ([], f.drop)
      else do
        let isMarked := f.isAt [.name, .value]
        let (k, f) ←
          if f.isAt [.name] then
            optionalNode? false false [.value, .comma, .flowTableEnd] fuel f.drop
          else if isMarked then some (.null, f)
          else node? false false fuel f
        let (v, f) ←
          if isMarked && f.isAt [.value] then
            optionalNode? false false [.comma, .flowTableEnd] fuel f.drop
          else some (.null, f)
        let (vs, f) ← flowFields? fuel false f
        some (k :: v :: vs, f)

end

/-! ## Documents -/

/-- Whether a token is a directive. -/
def Token.isDirective : Token → Bool
  | version => true
  | handle .. => true
  | _ => false

/-- What the handles of tags stand for after some directives.  Only the last directive counts. -/
def stemsOf (directives : List Token) : List (String × String) :=
  match directives.getLast? with
  | some (.handle handle stem) => [(handle, stem)]
  | _ => []

/-- Reads the node of a document and returns it with the tokens behind it. -/
def document? (stems : List (String × String)) (ts : List Token) : Option (Node × List Token) :=
  (node? true false (3 * ts.length + 3) ⟨ts, stems, [], []⟩).map fun (v, f) => (v, f.tokens)

/-- The node of a text, or none if it holds no document. -/
def Node.ofTokens? (ts : List Token) : Option (Option Node) := do
  let ts := ts.dropWhile (· == .documentEnd)
  let (directives, rest) := ts.span Token.isDirective
  if ts.isEmpty then some none
  else if 1 < directives.countP (· == .version) then none
  else
    let (v, rest) ← match rest with
      | .documentStart :: rest =>
        if rest.head?.all fun t => t.isDirective || t == .documentStart || t == .documentEnd then
          some (.null, rest)
        else document? (stemsOf directives) rest
      | rest => if directives.isEmpty then document? [] rest else none
    if (rest.dropWhile (· == .documentEnd)).isEmpty then some (some v) else none

/-- The node of a text, which holds one document at most.  The inner option tells whether it holds
one. -/
def Node.ofText? (s : String) : Option (Option Node) := (Token.ofText? s).bind Node.ofTokens?

end ChangeCapture.Yaml
