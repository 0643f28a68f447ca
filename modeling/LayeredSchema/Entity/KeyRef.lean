/-!
# References to keys

A `KeyRef` names columns of a table from somewhere else in the definition. A blank schema
means the schema of the referring table, and a blank column the one with the same name as the
referring column in that position.
-/

namespace LayeredSchema

/-- A reference, by name, to columns of a table. -/
structure KeyRef where
  schema : String := ""
  table : String
  columns : List String := []
  /-- The name of the constraint, blank for a nameless one. -/
  name : String := ""
deriving DecidableEq

namespace KeyRef

/-- The reference under a constraint's name. -/
def named (ref : KeyRef) (name : String) : KeyRef := { ref with name := name }

/-- The reference as error texts show it: `schema.table(first, second)`. -/
def text (ref : KeyRef) : String :=
  (if ref.schema = "" then "" else ref.schema ++ ".") ++ ref.table ++ "(" ++
    ", ".intercalate ref.columns ++ ")"

end KeyRef

end LayeredSchema
