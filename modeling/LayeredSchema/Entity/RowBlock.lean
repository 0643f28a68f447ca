import LayeredSchema.Name

/-!
# Row blocks

Rows that ship with a table. A block lists the columns that it fills, and each of its rows has
one value for each of them; a row of another length is *malformed*, which is a fault of the
document and not of this type.
-/

namespace LayeredSchema

/-- One row of a block, with `none` for NULL. -/
structure Row where
  values : List (Option String)
  /-- Whether the row is to be deleted rather than written. -/
  deleted : Bool := false
deriving DecidableEq

/-- The row that holds the given values, none of them NULL. -/
def Row.ofValues (values : List String) : Row := { values := values.map some }

/-- Rows over some columns of a table. -/
structure RowBlock where
  columns : List String
  rows : List Row := []
deriving DecidableEq

namespace RowBlock

/-- Where the first column of the given name stands. -/
def columnIndex? (block : RowBlock) (name : String) : Option Nat :=
  block.columns.findIdx? fun column => Name.same column name

end RowBlock

end LayeredSchema
