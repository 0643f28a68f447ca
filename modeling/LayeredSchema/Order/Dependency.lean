import LayeredSchema.Order.Digraph
import LayeredSchema.Reference.Key
import LayeredSchema.Settings

/-!
# Dependencies between tables

A table depends on every table that a foreign key of it leads to: one declared on a column, one
declared on the table, or a constraint that names a table. Inheritance makes no dependency.
`Definition.dependencyGraph` follows all of these references, and `Definition.creationOrder`
is an order in which every table can be created after those that it depends on.
-/

namespace LayeredSchema

/-- A reference from a table to another one. -/
inductive Reference (d : Definition) where
  | column (column : ColumnSlot d)
  | foreignKey (table : TableSlot d) (fk : ForeignKey)
  | constraint (table : TableSlot d) (constraint : Constraint)

namespace Reference

variable {d : Definition}

/-- The table that a reference leads to. -/
def target : Reference d → Except ResolveFailure (TableSlot d)
  | column c => c.targetKey.map Key.table
  | foreignKey t fk => (t.targetKey fk).map Key.table
  | constraint t c => (t.constraintTarget c).mapError .unresolved

end Reference

namespace TableSlot

variable {d : Definition}

/-- Every reference from a table, in the order in which they are followed. -/
def references (t : TableSlot d) : List (Reference d) :=
  (t.columns.filter fun c => c.column.hasForeignKey).map .column ++
  t.table.foreignKeys.map (.foreignKey t) ++
  (t.table.constraints.filter Constraint.referencesTable).map (.constraint t)

/-- The tables that a table depends on, in the order of all tables. -/
def dependencies (options : OrderOptions) (t : TableSlot d) :
    Except ResolveFailure (List (TableSlot d)) := do
  let targets ← t.references.mapM Reference.target
  return d.tableSlots.filter fun u =>
    u ∈ targets && !(u == t && options.allowSelfReferences)

end TableSlot

/-- Why tables could not be ordered. -/
inductive OrderError where
  /-- The tables that depend on each other, and those that depend on them. -/
  | cycle (tables : List String)
  | failed (failure : ResolveFailure)
deriving DecidableEq

/-- The message that reports a cycle. -/
def cycleMessage (tables : List String) : String :=
  "Dependency cycle detected; tables left unordered: " ++ ", ".intercalate tables

namespace Definition

/-- The tables of a definition with their dependencies as parents. -/
def dependencyGraph (d : Definition) (options : OrderOptions) :
    Except ResolveFailure (Digraph (TableSlot d)) := do
  let edges ← d.tableSlots.mapM fun t => do return (t, ← t.dependencies options)
  return { nodes := d.tableSlots, parents := fun t => (edges.lookup t).getD [] }

end Definition

namespace Digraph

variable {d : Definition}

/-- An order in which tables can be created. -/
def creationOrder (g : Digraph (TableSlot d)) : Except OrderError (List (TableSlot d)) :=
  g.order.mapError fun stuck => .cycle (stuck.map TableSlot.qualifiedName)

/-- An order in which tables can be dropped. -/
def dropOrder (g : Digraph (TableSlot d)) : Except OrderError (List (TableSlot d)) :=
  g.creationOrder.map List.reverse

end Digraph

namespace Definition

/-- An order in which the tables of a definition can be created. -/
def creationOrder (d : Definition) (options : OrderOptions) :
    Except OrderError (List (TableSlot d)) := do
  let g ← (d.dependencyGraph options).mapError .failed
  g.creationOrder

end Definition

end LayeredSchema
