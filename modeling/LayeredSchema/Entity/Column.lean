import LayeredSchema.Entity.KeyRef
import LayeredSchema.Identity

/-!
# Columns

A column may carry a foreign key of its own: it has one as soon as it names a foreign table. A
column without a type is a *proxy*, which takes its type from the column it refers to.
-/

namespace LayeredSchema

/-- SQL that runs around the three stages in which a migration adds a column. -/
structure Hooks where
  beforeAdd1 : Option String := none
  beforeAdd2 : Option String := none
  beforeAdd3 : Option String := none
  afterAdd1 : Option String := none
  afterAdd2 : Option String := none
  afterAdd3 : Option String := none
deriving DecidableEq

/-- A column of a table. -/
structure Column where
  name : String
  /-- The SQL type, absent on a proxy. -/
  type : Option String := none
  nullable : Bool := true
  defaultValue : Option String := none
  description : String := ""
  unique : Bool := false
  check : Option String := none
  foreignSchema : String := ""
  foreignTable : String := ""
  foreignColumn : String := ""
  foreignKeyName : String := ""
  onUpdate : ReferentialAction := default
  onDelete : ReferentialAction := default
  hooks : Hooks := {}
deriving DecidableEq

instance : Named Column := ⟨Column.name⟩

namespace Column

/-- A column with a type. -/
def typed (name type : String) : Column := { name := name, type := some type }

/-- A column that takes its type from the column it refers to. -/
def proxy (name : String) : Column := { name := name }

/-- The column with NULL forbidden. -/
def notNull (c : Column) : Column := { c with nullable := false }

/-- The column with a default value. -/
def withDefault (c : Column) (value : String) : Column := { c with defaultValue := some value }

/-- The column with a foreign key to a column of `schema.table`. -/
def references (c : Column) (schema table column : String) : Column :=
  { c with foreignSchema := schema, foreignTable := table, foreignColumn := column }

/-- Whether the column has a foreign key. -/
def hasForeignKey (c : Column) : Bool := c.foreignTable != ""

/-- Whether any field of a foreign key is filled in, even if they make no whole one. -/
def mentionsForeignKey (c : Column) : Bool :=
  c.foreignSchema != "" || c.foreignTable != "" || c.foreignColumn != "" ||
    c.foreignKeyName != ""

/-- What the column's foreign key refers to. -/
def foreignKey? (c : Column) : Option KeyRef :=
  if c.hasForeignKey then
    some { schema := c.foreignSchema, table := c.foreignTable, columns := [c.foreignColumn],
           name := c.foreignKeyName }
  else none

/-- The column as it stands in a column list: its name and, if it has one, its type. -/
def text (c : Column) : String :=
  match c.type with
  | some type => c.name ++ " " ++ type
  | none => c.name

end Column

/-- Hooks do not count: they matter to one migration and not to its result. -/
instance : Comparable Column where
  equalFor _ a b :=
    Identity.sameAs a b && agreeOption Name.same a.type b.type && a.nullable == b.nullable &&
      a.defaultValue == b.defaultValue && a.description == b.description &&
      a.unique == b.unique && a.check == b.check &&
      Name.same a.foreignSchema b.foreignSchema && Name.same a.foreignTable b.foreignTable &&
      Name.same a.foreignColumn b.foreignColumn &&
      Name.same a.foreignKeyName b.foreignKeyName &&
      a.onUpdate == b.onUpdate && a.onDelete == b.onDelete

end LayeredSchema
