/-!
# Tokens of YAML

The marks and scalars of a text.  Where blocks begin and end is told by marks of
their own, so that the indentation of a text is no longer needed.
-/

namespace ChangeCapture.Yaml

/-- A token. -/
inductive Token where
  /-- The directive that gives the version of the language. -/
  | version
  /-- A directive that gives the meaning of a handle of tags. -/
  | handle (handle stem : String)
  /-- The mark that begins a document. -/
  | documentStart
  /-- The mark that ends a document. -/
  | documentEnd
  /-- The beginning of a list in block style. -/
  | blockList
  /-- The beginning of a table in block style. -/
  | blockTable
  /-- The end of a list or table in block style. -/
  | blockEnd
  /-- An opening bracket. -/
  | flowList
  /-- A closing bracket. -/
  | flowListEnd
  /-- An opening brace. -/
  | flowTable
  /-- A closing brace. -/
  | flowTableEnd
  /-- The dash before an item. -/
  | dash
  /-- The comma after an item or a field. -/
  | comma
  /-- What stands before the name of a field. -/
  | name
  /-- The colon before the value of a field. -/
  | value
  /-- A reference to a named node. -/
  | alias (name : String)
  /-- The name of the node that follows. -/
  | anchor (name : String)
  /-- The tag of the node that follows. -/
  | tag (handle suffix : String)
  /-- A plain scalar. -/
  | plain (text : String)
  /-- A scalar in quotes or in block style. -/
  | text (s : String)
  deriving DecidableEq, Repr

end ChangeCapture.Yaml
