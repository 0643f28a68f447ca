import LayeredSchema.Identity

/-!
# Triggers

A trigger runs a routine when rows of its table change. It is known by its name together with
its table, and may be meant for one dialect alone.
-/

namespace LayeredSchema

/-- A trigger of a schema. -/
structure Trigger where
  name : String
  table : String
  events : List String := []
  timing : TriggerTiming := default
  level : TriggerLevel := default
  /-- The name of the routine that it runs. -/
  routine : String
  dialect : Option Dialect := none
deriving DecidableEq

instance : Keyed Trigger (String × String) where
  key t := some (Name.fold t.name, Name.fold t.table)

namespace Trigger

/-- Whether the trigger is meant for a dialect. -/
def appliesTo (t : Trigger) (dialect : Dialect) : Bool :=
  match t.dialect with
  | some only => only == dialect
  | none => true

end Trigger

instance : Comparable Trigger where
  equalFor dialect a b :=
    Identity.sameAs a b && a.appliesTo dialect && b.appliesTo dialect &&
      Name.sameSet a.events b.events && a.timing == b.timing && a.level == b.level &&
      Name.same a.routine b.routine

end LayeredSchema
