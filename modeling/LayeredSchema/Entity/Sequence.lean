import LayeredSchema.Entity.Grant
import LayeredSchema.Identity

/-!
# Sequences

A generator of numbers. Each of its settings may be left to the database, which is not the
same as setting it to zero.
-/

namespace LayeredSchema

/-- A sequence of a schema. -/
structure Sequence where
  name : String
  owner : String := ""
  description : String := ""
  cache : Option Int64 := none
  start : Option Int64 := none
  min : Option Int64 := none
  max : Option Int64 := none
  increment : Option Int64 := none
  cycle : Bool := false
  /-- The column that the sequence belongs to, as `table.column`. -/
  ownedBy : String := ""
  grants : List Grant := []
deriving DecidableEq

instance : Named Sequence := ⟨Sequence.name⟩

instance : Comparable Sequence where
  equalFor _ a b :=
    Identity.sameAs a b && Name.same a.owner b.owner && a.cache == b.cache &&
      a.start == b.start && a.min == b.min && a.max == b.max && a.increment == b.increment &&
      a.cycle == b.cycle && Name.same a.ownedBy b.ownedBy

end LayeredSchema
