import LayeredSchema.Entity.Definition
import LayeredSchema.Text.Quoted

/-!
# Slots

A *slot* is the place of a table or a column in one definition. Names may repeat, so that a
name does not tell which of two tables is meant; a slot does, and it always holds something:
its positions are within the lists that they point into. Two slots are equal when they are the
same place, whatever is declared there.
-/

namespace LayeredSchema

/-- The place of a table in a definition. -/
structure TableSlot (d : Definition) where
  schemaAt : Fin d.schemas.length
  tableAt : Fin (d.schemas.get schemaAt).tables.length
deriving DecidableEq

namespace TableSlot

variable {d : Definition}

/-- The schema that the slot is in. -/
def schema (t : TableSlot d) : Schema := d.schemas.get t.schemaAt

/-- The table in the slot. -/
def table (t : TableSlot d) : Table := t.schema.tables.get t.tableAt

/-- The table's name after that of its schema. -/
def qualifiedName (t : TableSlot d) : String := t.schema.name ++ "." ++ t.table.name

/-- The slot with the names of its parts, for people to tell slots by. -/
def describe (t : TableSlot d) : String :=
  "TableRef \x7b schema: " ++ Text.quoted t.schema.name ++ ", table: " ++
    Text.quoted t.table.name ++ " \x7d"

/-- The name of something on the table as error texts put it: the table, then the name in
brackets if it has one. -/
def referrer (t : TableSlot d) (name : String) : String :=
  if name = "" then t.qualifiedName else t.qualifiedName ++ " (" ++ name ++ ")"

end TableSlot

/-- The place of a column in a definition. -/
structure ColumnSlot (d : Definition) where
  owner : TableSlot d
  columnAt : Fin owner.table.columns.length
deriving DecidableEq

namespace ColumnSlot

variable {d : Definition}

/-- The column in the slot. -/
def column (c : ColumnSlot d) : Column := c.owner.table.columns.get c.columnAt

/-- The column's name after those of its schema and its table. -/
def qualifiedName (c : ColumnSlot d) : String := c.owner.qualifiedName ++ "." ++ c.column.name

end ColumnSlot

namespace TableSlot

variable {d : Definition}

/-- The columns that the table itself declares. -/
def columns (t : TableSlot d) : List (ColumnSlot d) :=
  (List.finRange t.table.columns.length).map fun c => ⟨t, c⟩

/-- The column at a position of the table, counted from zero. -/
def columnSlot? (t : TableSlot d) (columnAt : Nat) : Option (ColumnSlot d) :=
  if c : columnAt < t.table.columns.length then some ⟨t, ⟨columnAt, c⟩⟩ else none

/-- The column of the given name that the table itself declares. -/
def column? (t : TableSlot d) (name : String) : Option (ColumnSlot d) :=
  (Siblings.position? t.table.columns name).map fun c => ⟨t, c⟩

end TableSlot

namespace Definition

/-- The tables of a schema, in the order of their declaration. -/
def tableSlotsIn (d : Definition) (s : Fin d.schemas.length) : List (TableSlot d) :=
  (List.finRange (d.schemas.get s).tables.length).map fun t => ⟨s, t⟩

/-- All tables, schema by schema. -/
def tableSlots (d : Definition) : List (TableSlot d) :=
  (List.finRange d.schemas.length).flatMap d.tableSlotsIn

/-- All columns, table by table. -/
def columnSlots (d : Definition) : List (ColumnSlot d) := d.tableSlots.flatMap TableSlot.columns

/-- The table of the given name in a schema. -/
def tableIn? (d : Definition) (s : Fin d.schemas.length) (name : String) :
    Option (TableSlot d) :=
  (Siblings.position? (d.schemas.get s).tables name).map fun t => ⟨s, t⟩

/-- The table at a position of a schema at a position, both counted from zero. -/
def tableSlot? (d : Definition) (schemaAt tableAt : Nat) : Option (TableSlot d) :=
  if s : schemaAt < d.schemas.length then
    if t : tableAt < (d.schemas.get ⟨schemaAt, s⟩).tables.length then
      some ⟨⟨schemaAt, s⟩, ⟨tableAt, t⟩⟩
    else none
  else none

theorem mem_tableSlots {d : Definition} (t : TableSlot d) : t ∈ d.tableSlots := by
  simp only [tableSlots, List.mem_flatMap, tableSlotsIn, List.mem_map]
  exact ⟨t.schemaAt, List.mem_finRange _, t.tableAt, List.mem_finRange _, rfl⟩

theorem mem_columnSlots {d : Definition} (c : ColumnSlot d) : c ∈ d.columnSlots := by
  simp only [columnSlots, List.mem_flatMap, TableSlot.columns, List.mem_map]
  exact ⟨c.owner, mem_tableSlots _, c.columnAt, List.mem_finRange _, rfl⟩

end Definition

end LayeredSchema
