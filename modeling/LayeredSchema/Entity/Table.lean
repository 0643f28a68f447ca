import LayeredSchema.Entity.Column
import LayeredSchema.Entity.Constraint
import LayeredSchema.Entity.ForeignKey
import LayeredSchema.Entity.Grant
import LayeredSchema.Entity.Index
import LayeredSchema.Entity.RowBlock
import LayeredSchema.Siblings

/-!
# Tables

A table with all that is declared on it. A table that names a parent inherits the columns of
the parent, and through it those of all its ancestors; `Reference.Inheritance` follows them.
-/

namespace LayeredSchema

/-- How a table is stored, in the words of one dialect. -/
structure StorageOption where
  dialect : Dialect
  name : String
  value : String
deriving DecidableEq

instance : Keyed StorageOption (Dialect × String) where
  key o := some (o.dialect, Name.fold o.name)

/-- An option says nothing to a dialect that it was not written for. -/
instance : Comparable StorageOption where
  equalFor dialect a b :=
    a.dialect == dialect && Identity.sameAs a b && a.value == b.value

/-- A table of a schema. -/
structure Table where
  name : String
  owner : String := ""
  description : String := ""
  /-- The names of the columns of the primary key, in order. -/
  primaryKey : List String := []
  primaryKeyName : String := ""
  clusterIndex : Option String := none
  /-- The parent's schema, blank for the table's own. -/
  parentSchema : String := ""
  /-- The parent, blank for a table that has none. -/
  parentTable : String := ""
  options : List StorageOption := []
  columns : List Column := []
  foreignKeys : List ForeignKey := []
  indexes : List Index := []
  constraints : List Constraint := []
  grants : List Grant := []
  rows : Option RowBlock := none
deriving DecidableEq

instance : Named Table := ⟨Table.name⟩

namespace Table

/-- A table of the given name with nothing on it. -/
def empty (name : String) : Table := { name := name }

def withColumn (t : Table) (column : Column) : Table :=
  { t with columns := t.columns ++ [column] }

def withPrimaryKey (t : Table) (columns : List String) : Table := { t with primaryKey := columns }

/-- The table as a child of `schema.table`, where a blank schema is the table's own. -/
def inheriting (t : Table) (schema table : String) : Table :=
  { t with parentSchema := schema, parentTable := table }

def withForeignKey (t : Table) (fk : ForeignKey) : Table :=
  { t with foreignKeys := t.foreignKeys ++ [fk] }

def withIndex (t : Table) (index : Index) : Table := { t with indexes := t.indexes ++ [index] }

def withConstraint (t : Table) (constraint : Constraint) : Table :=
  { t with constraints := t.constraints ++ [constraint] }

def withGrant (t : Table) (grant : Grant) : Table := { t with grants := t.grants ++ [grant] }

/-- Whether the table names a parent. -/
def hasParent (t : Table) : Bool := t.parentTable != ""

/-- The column of the given name that the table itself declares. -/
def column? (t : Table) (name : String) : Option Column := Siblings.named? t.columns name

def index? (t : Table) (name : String) : Option Index := Siblings.named? t.indexes name

def constraint? (t : Table) (name : String) : Option Constraint :=
  Siblings.named? t.constraints name

def foreignKey? (t : Table) (name : String) : Option ForeignKey :=
  Siblings.named? t.foreignKeys name

/-- The options that speak to a dialect. -/
def optionsFor (t : Table) (dialect : Dialect) : List StorageOption :=
  t.options.filter fun option => option.dialect == dialect

/-- Whether the primary key lists a column. -/
def isKeyColumn (t : Table) (column : String) : Bool := Name.isIn column t.primaryKey

end Table

end LayeredSchema
