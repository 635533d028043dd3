import ChangeCapture.Settings.Topic

/-!
# Names of tables

A buffered table is named by its schema and its own name.  A table of the
destination is named by its database as well.  Both are ordered part by part,
so that they can be keys of a sorted map.
-/

namespace ChangeCapture

/-- The name of a buffered table. -/
structure TableId where
  /-- The schema. -/
  schema : String
  /-- The name within the schema. -/
  name : String
  deriving DecidableEq, Repr, Inhabited

namespace TableId

/-- The parts of the name in order. -/
def parts (t : TableId) : List String := [t.schema, t.name]

/-- The name as a text, with a point between the parts. -/
def text (t : TableId) : String := t.schema ++ "." ++ t.name

instance : Ord TableId := ⟨compareOn parts⟩

instance : Std.TransOrd TableId := inferInstanceAs (Std.TransCmp (compareOn parts))

instance : Std.LawfulEqOrd TableId where
  compare_self {a} := (Std.ReflCmp.compare_self : compare a.parts a.parts = .eq)
  eq_of_compare {a b} h := by
    replace h : compare a.parts b.parts = .eq := h
    have : a.parts = b.parts := Std.LawfulEqCmp.eq_of_compare h
    cases a; cases b; simpa [parts] using this

end TableId

/-- The name of a table of the destination. -/
structure TablePath where
  /-- The database. -/
  database : String
  /-- The schema. -/
  schema : String
  /-- The name within the schema. -/
  name : String
  deriving DecidableEq, Repr, Inhabited

namespace TablePath

/-- The parts of the name in order. -/
def parts (t : TablePath) : List String := [t.database, t.schema, t.name]

/-- The name as a text, with points between the parts. -/
def text (t : TablePath) : String := t.database ++ "." ++ t.schema ++ "." ++ t.name

/-- The table of a name where a topic writes its tables. -/
def ofTopic (s : TopicSettings) (name : String) : TablePath := ⟨s.database, s.schema, name⟩

instance : Ord TablePath := ⟨compareOn parts⟩

instance : Std.TransOrd TablePath := inferInstanceAs (Std.TransCmp (compareOn parts))

instance : Std.LawfulEqOrd TablePath where
  compare_self {a} := (Std.ReflCmp.compare_self : compare a.parts a.parts = .eq)
  eq_of_compare {a b} h := by
    replace h : compare a.parts b.parts = .eq := h
    have : a.parts = b.parts := Std.LawfulEqCmp.eq_of_compare h
    cases a; cases b; simpa [parts] using this

end TablePath

end ChangeCapture
