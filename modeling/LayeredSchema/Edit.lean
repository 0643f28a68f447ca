import LayeredSchema.Overlay.Definition

/-!
# Editing by name

A definition can be changed one entity at a time: `Edit.perform?` finds the entity by name, as a
reader of the definition would, and changes it and nothing else. It answers `none` where there
is no such entity, except that a schema which is asked for comes into being.

What changes of an entity is the value of one field (`assign`), its name excepted, or a child is
added to it. A *session* makes edits one after another, starting from nothing, and passes over
those that find nothing to change.
-/

namespace LayeredSchema

namespace Siblings

/-- The siblings with the first one of the given name replaced by what `f` makes of it, if there
is one and `f` makes anything of it. -/
def updateNamed? {α : Type} [Named α] (name : String) (f : α → Option α) (siblings : List α) :
    Option (List α) := do
  let changed ← f (← named? siblings name)
  modifyNamed? name (fun _ => changed) siblings

end Siblings

namespace Column

/-- A field of a column, its name excepted, with the value to give it. -/
inductive Assignment where
  | type (value : Option String)
  | nullable (value : Bool)
  | defaultValue (value : Option String)
  | description (value : String)
  | unique (value : Bool)
  | check (value : Option String)
  | foreignSchema (value : String)
  | foreignTable (value : String)
  | foreignColumn (value : String)
  | foreignKeyName (value : String)
  | onUpdate (value : ReferentialAction)
  | onDelete (value : ReferentialAction)
  | hooks (value : Hooks)

/-- The column with a value given to one of its fields. -/
def assign (c : Column) : Assignment → Column
  | .type value => { c with type := value }
  | .nullable value => { c with nullable := value }
  | .defaultValue value => { c with defaultValue := value }
  | .description value => { c with description := value }
  | .unique value => { c with unique := value }
  | .check value => { c with check := value }
  | .foreignSchema value => { c with foreignSchema := value }
  | .foreignTable value => { c with foreignTable := value }
  | .foreignColumn value => { c with foreignColumn := value }
  | .foreignKeyName value => { c with foreignKeyName := value }
  | .onUpdate value => { c with onUpdate := value }
  | .onDelete value => { c with onDelete := value }
  | .hooks value => { c with hooks := value }

end Column

namespace Table

/-- A field of a table that holds no entities, its name excepted, with the value to give it. -/
inductive Assignment where
  | owner (value : String)
  | description (value : String)
  | primaryKey (value : List String)
  | primaryKeyName (value : String)
  | clusterIndex (value : Option String)
  | parentSchema (value : String)
  | parentTable (value : String)

/-- The table with a value given to one of its fields. -/
def assign (t : Table) : Assignment → Table
  | .owner value => { t with owner := value }
  | .description value => { t with description := value }
  | .primaryKey value => { t with primaryKey := value }
  | .primaryKeyName value => { t with primaryKeyName := value }
  | .clusterIndex value => { t with clusterIndex := value }
  | .parentSchema value => { t with parentSchema := value }
  | .parentTable value => { t with parentTable := value }

/-- The table with the first column of the given name changed, if it can be. -/
def modifyColumn? (name : String) (f : Column → Option Column) (t : Table) : Option Table :=
  (Siblings.updateNamed? name f t.columns).map fun columns => { t with columns := columns }

end Table

namespace Schema

/-- A field of a schema that holds no entities, its name excepted, with the value to give it. -/
inductive Assignment where
  | owner (value : String)
  | description (value : String)

/-- The schema with a value given to one of its fields. -/
def assign (s : Schema) : Assignment → Schema
  | .owner value => { s with owner := value }
  | .description value => { s with description := value }

/-- The schema with the first table of the given name changed, if it can be. -/
def modifyTable? (name : String) (f : Table → Option Table) (s : Schema) : Option Schema :=
  (Siblings.updateNamed? name f s.tables).map fun tables => { s with tables := tables }

end Schema

namespace Definition

/-- The definition with the first schema of the given name changed, if it can be. -/
def modifySchema? (name : String) (f : Schema → Option Schema) (d : Definition) :
    Option Definition :=
  (Siblings.updateNamed? name f d.schemas).map fun schemas => { d with schemas := schemas }

/-- The definition with a schema of the given name, an empty one if it had none. -/
def ensureSchema (name : String) (d : Definition) : Definition :=
  if (d.schema? name).isSome then d else d.withSchema (Schema.empty name)

/-- The table that two names lead to. -/
def table? (d : Definition) (schema table : String) : Option Table := do
  (← d.schema? schema).table? table

/-- The column that three names lead to. -/
def column? (d : Definition) (schema table column : String) : Option Column := do
  (← d.table? schema table).column? column

end Definition

/-- A change to a definition. -/
inductive Edit where
  | overlay (layer : Definition)
  /-- Adds a schema, whether or not there is one of its name. -/
  | addSchema (schema : Schema)
  | ensureSchema (name : String)
  | assignSchema (schema : String) (value : Schema.Assignment)
  /-- Adds a table to a schema, which comes into being where there is none. -/
  | addTable (schema : String) (table : Table)
  | assignTable (schema table : String) (value : Table.Assignment)
  | addColumn (schema table : String) (column : Column)
  | assignColumn (schema table column : String) (value : Column.Assignment)

namespace Edit

def setSchemaOwner (schema owner : String) : Edit := assignSchema schema (.owner owner)

def setTableOwner (schema table owner : String) : Edit := assignTable schema table (.owner owner)

def setColumnType (schema table column : String) (type : Option String) : Edit :=
  assignColumn schema table column (.type type)

/-- The definition after the edit, or `none` if it finds nothing to change. -/
def perform? (d : Definition) : Edit → Option Definition
  | overlay layer => some (Overlay.overlay d layer)
  | addSchema schema => some (d.withSchema schema)
  | ensureSchema name => some (d.ensureSchema name)
  | assignSchema schema value => d.modifySchema? schema fun s => some (s.assign value)
  | addTable schema table =>
    (d.ensureSchema schema).modifySchema? schema fun s => some (s.withTable table)
  | assignTable schema table value =>
    d.modifySchema? schema (Schema.modifyTable? table fun t => some (t.assign value))
  | addColumn schema table column =>
    d.modifySchema? schema (Schema.modifyTable? table fun t => some (t.withColumn column))
  | assignColumn schema table column value =>
    d.modifySchema? schema (Schema.modifyTable? table
      (Table.modifyColumn? column fun c => some (c.assign value)))

/-- The definition after the edit, which is the one before it if nothing is found. -/
def perform (d : Definition) (edit : Edit) : Definition := (edit.perform? d).getD d

end Edit

/-- What edits make of nothing, one after another. -/
def Definition.session (edits : List Edit) : Definition := edits.foldl Edit.perform Definition.empty

end LayeredSchema
