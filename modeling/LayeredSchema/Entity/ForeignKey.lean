import LayeredSchema.Entity.KeyRef
import LayeredSchema.Identity

/-!
# Foreign keys of tables

A foreign key declared on a table, over any number of its columns. Its foreign columns are
left out, or listed one for each local column; a blank one stands for the local name.
-/

namespace LayeredSchema

/-- A foreign key over columns of a table. -/
structure ForeignKey where
  columns : List String
  foreignSchema : String := ""
  foreignTable : String
  foreignColumns : List String := []
  /-- The name of the constraint, blank for a nameless one. -/
  name : String := ""
  indexName : String := ""
  onUpdate : ReferentialAction := default
  onDelete : ReferentialAction := default
deriving DecidableEq

/-- A nameless foreign key bears the blank name, which it shares with every other one. -/
instance : Named ForeignKey := ⟨ForeignKey.name⟩

namespace ForeignKey

/-- What the foreign key refers to. -/
def target (fk : ForeignKey) : KeyRef :=
  { schema := fk.foreignSchema, table := fk.foreignTable, columns := fk.foreignColumns,
    name := fk.name }

end ForeignKey

instance : Comparable ForeignKey where
  equalFor _ a b :=
    Identity.sameAs a b && Name.sameList a.columns b.columns &&
      Name.same a.foreignSchema b.foreignSchema && Name.same a.foreignTable b.foreignTable &&
      Name.sameList a.foreignColumns b.foreignColumns && Name.same a.indexName b.indexName &&
      a.onUpdate == b.onUpdate && a.onDelete == b.onDelete

end LayeredSchema
