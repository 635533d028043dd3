import ChangeCapture.Settings.Tree

/-!
# Merging trees of settings

Settings of a later source replace those of an earlier one, but tables are
merged field by field.  Names of fields are merged in lower case; the fields of
tables inside lists keep theirs.  A field may be named by a path, as
`source.kafka.group_id` or `topics[0]`.  An index below zero counts from the end
of a list.
-/

namespace ChangeCapture

namespace SettingTree

/-! ## Tables -/

mutual

/-- A tree laid over another one, if there is one. -/
def overlay (old : Option SettingTree) : SettingTree → SettingTree
  | table fields => overlayFields (old.getD (.table [])) fields
  | v => v

/-- Fields laid over those of a tree, with their names in lower case.  A tree that is no table
gives way to the first field. -/
def overlayFields (target : SettingTree) : List (String × SettingTree) → SettingTree
  | [] => target
  | (name, v) :: rest =>
    let name := Unicode.lowercase name
    let old := target.fields.lookup name
    overlayFields (.table (setField name (overlay old v) target.fields)) rest

end

/-! ## Paths -/

/-- A step into a tree. -/
inductive Step where
  /-- To a field of a table. -/
  | field (name : String)
  /-- To an item of a list, counted from the end if the index is below zero. -/
  | item (index : Int)
  deriving DecidableEq, Repr

/-- Whether a character may stand in a name of a path. -/
def isNameChar (c : Char) : Bool := c.isAlphanum || c == ' ' || c == '_' || c == '-'

/-- A name of a path, which must not be empty, and the rest. -/
def name? (cs : List Char) : Option (String × List Char) :=
  let (name, rest) := cs.span isNameChar
  if name.isEmpty then none else some (String.ofList name, rest)

/-- Whether a character may stand around an index. -/
def isIndexBlank (c : Char) : Bool := c == ' ' || c == '\t'

/-- An index of 64 bits with blanks around it, up to its bracket, and the rest. -/
def index? (cs : List Char) : Option (Int × List Char) := do
  let (sign, cs) := (cs.dropWhile isIndexBlank).span (· == '-')
  let (digits, cs) := cs.span Char.isDigit
  let index ← Text.int64? (String.ofList (sign ++ digits))
  match cs.dropWhile isIndexBlank with
  | ']' :: rest => some (index, rest)
  | _ => none

/-- The steps of a path after its first name. -/
def laterSteps? : Nat → List Char → Option (List Step)
  | _, [] => some []
  | 0, _ => none
  | fuel + 1, '.' :: cs => do
    let (name, rest) ← name? cs
    some (.field name :: (← laterSteps? fuel rest))
  | fuel + 1, '[' :: cs => do
    let (index, rest) ← index? cs
    some (.item index :: (← laterSteps? fuel rest))
  | _, _ => none

/-- The steps of a path.  A text that is no path names one field. -/
def stepsOf (path : String) : List Step :=
  let steps : Option (List Step) := do
    let (name, rest) ← name? path.toList
    some (.field name :: (← laterSteps? rest.length rest))
  steps.getD [.field path]

/-- The place that an index points to, and the items with nulls for those that are missing up to
there, at the end or in front. -/
def reach (index : Int) (items : List SettingTree) : Nat × List SettingTree :=
  let place := if index < 0 then index + items.length else index
  if place < 0 then (0, List.replicate place.natAbs null ++ items)
  else (place.toNat, items ++ List.replicate (place.toNat + 1 - items.length) null)

/-- Changes the item at an index. -/
def modifyItem (index : Int) (change : SettingTree → SettingTree) (items : List SettingTree) :
    List SettingTree :=
  let (place, items) := reach index items
  items.modify place change

/-- Lays a tree over what is at the end of a path. -/
def putAt (v : SettingTree) : List Step → SettingTree → SettingTree
  | [], root => overlay (some root) v
  | [.field name], root => overlayFields root [(name, v)]
  | [.item index], root => .list (modifyItem index (fun _ => v) (root.items?.getD []))
  | .field name :: rest, root =>
    let old := (root.fields.lookup name).getD (.table [])
    .table (setField name (putAt v rest old) root.fields)
  | .item index :: rest, root =>
    .list (modifyItem index (putAt v rest) (root.items?.getD []))

/-- Lays named trees over a tree.  The names may be paths. -/
def putAll (root : SettingTree) (entries : List (String × SettingTree)) : SettingTree :=
  entries.foldl (fun root (path, v) => putAt v (stepsOf path) root) root

end SettingTree

end ChangeCapture
