import LayeredSchema.Identity

/-!
# Constraints

A table constraint in the dialect's own words. One that demands a foreign key may name the
table that it refers to, and then counts as a reference to that table.
-/

namespace LayeredSchema

/-- A constraint of a table. -/
structure Constraint where
  name : String
  kind : ConstraintKind
  definition : String := ""
  foreignIndexName : String := ""
  foreignSchema : String := ""
  foreignTable : String := ""
deriving DecidableEq

instance : Named Constraint := ⟨Constraint.name⟩

namespace Constraint

/-- The constraint with a foreign table to refer to. -/
def referencing (c : Constraint) (schema table : String) : Constraint :=
  { c with foreignSchema := schema, foreignTable := table }

/-- Whether the constraint is a foreign key that names the table it refers to. -/
def referencesTable (c : Constraint) : Bool := c.kind == .foreignKey && c.foreignTable != ""

end Constraint

instance : Comparable Constraint where
  equalFor _ a b :=
    Identity.sameAs a b && a.kind == b.kind && Text.sameTrimmed a.definition b.definition &&
      Name.same a.foreignIndexName b.foreignIndexName &&
      Name.same a.foreignSchema b.foreignSchema && Name.same a.foreignTable b.foreignTable

end LayeredSchema
