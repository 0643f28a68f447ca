import LayeredSchema.Reference.Chain
import LayeredSchema.Reference.Failure
import LayeredSchema.Reference.Slot

/-!
# Tables by name, and inherited columns

A reference names a table by its schema and its own name, as seen from some schema; a blank
schema is the one it is seen from. A column that a table does not declare may come from an
ancestor: `inheritedColumn?` finds the nearest declaration along the chain of parents.
-/

namespace LayeredSchema

namespace Definition

/-- The table that `schema.table` names as seen from the schema `home`, on behalf of a
referrer. -/
def findTable (d : Definition) (home : Fin d.schemas.length)
    (schema table referrer : String) : Except ResolveError (TableSlot d) :=
  match if schema = "" then some home else Siblings.position? d.schemas schema with
  | none => .error (.unknownSchema referrer schema)
  | some s =>
    match d.tableIn? s table with
    | none => .error (.unknownTable referrer (d.schemas.get s).name table)
    | some t => .ok t

/-- The table that `schema.table` names as seen from a schema, which is then the referrer. -/
def resolveTable (d : Definition) (home : Fin d.schemas.length) (schema table : String) :
    Except ResolveError (TableSlot d) :=
  d.findTable home schema table (d.schemas.get home).name

end Definition

namespace TableSlot

variable {d : Definition}

/-- The parent that the table names. -/
def parent (t : TableSlot d) : Except ResolveError (TableSlot d) :=
  d.findTable t.schemaAt t.table.parentSchema t.table.parentTable t.qualifiedName

/-- Whether the search for a column ends at a table, and with what. -/
def inheritanceStep (name : String) (t : TableSlot d) :
    Except ResolveError (Link (TableSlot d) (Option (ColumnSlot d))) :=
  match t.column? name with
  | some c => .ok (.stop (some c))
  | none => if t.table.hasParent then t.parent.map .next else .ok (.stop none)

/-- The nearest column of the given name on the table and its ancestors. -/
def inheritedColumn? (t : TableSlot d) (name : String) :
    Except ResolveError (Option (ColumnSlot d)) :=
  follow (inheritanceStep name) (fun revisited => .inheritanceCycle revisited.qualifiedName)
    (d.tableSlots.erase t) t

/-- The nearest column of the given name, which must be there, on behalf of a referrer. -/
def requireColumn (t : TableSlot d) (referrer name : String) :
    Except ResolveError (ColumnSlot d) :=
  match t.inheritedColumn? name with
  | .error e => .error e
  | .ok (some c) => .ok c
  | .ok none => .error (.unknownColumn referrer t.schema.name t.table.name name)

/-- The table that a constraint of this one names. -/
def constraintTarget (t : TableSlot d) (constraint : Constraint) :
    Except ResolveError (TableSlot d) :=
  d.findTable t.schemaAt constraint.foreignSchema constraint.foreignTable
    (t.referrer constraint.name)

end TableSlot

end LayeredSchema
