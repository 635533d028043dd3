import ChangeCapture.Row

/-!
# System columns

Columns that the consumer adds to rows.
-/

namespace ChangeCapture

namespace SystemColumn

/-- Whether the row was deleted at the source. -/
def deleted : String := "__artie_delete"

/-- Whether nothing but the mark of the delete must be written. -/
def onlySetDelete : String := "__artie_only_set_delete"

/-- When the row was taken in. -/
def updatedAt : String := "__artie_updated_at"

/-- When the source committed the change. -/
def databaseUpdatedAt : String := "__artie_db_updated_at"

/-- The code of the operation. -/
def operation : String := "__artie_operation"

/-- All system columns. -/
def all : List String := [deleted, onlySetDelete, updatedAt, databaseUpdatedAt, operation]

end SystemColumn

/-- Whether a row is marked as deleted. -/
def Row.isDeleted (r : Row) : Bool := (r.get? SystemColumn.deleted).any Json.isTrue

end ChangeCapture
