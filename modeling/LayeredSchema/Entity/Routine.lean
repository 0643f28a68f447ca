import LayeredSchema.Entity.Grant
import LayeredSchema.Identity

/-!
# Routines

A stored function. It has a *signature*, its name with its parameters, and *bodies*, one for
each dialect that it is written for. Routines of one signature may be declared apart from each
other, each with the bodies for other dialects; two of them are the same routine only once
they share a dialect. So sameness of routines is no equivalence: a routine with bodies for two
dialects is the same as two routines that are not the same as each other.
-/

namespace LayeredSchema

namespace Routine

/-- A parameter of a routine. -/
structure Parameter where
  name : String := ""
  type : String
  direction : Direction := default
deriving DecidableEq

/-- Whether two parameters agree in name, type and direction. -/
def Parameter.same (a b : Parameter) : Bool :=
  Name.same a.name b.name && Name.same a.type b.type && a.direction == b.direction

/-- The parameter with another direction. -/
def Parameter.withDirection (p : Parameter) (direction : Direction) : Parameter :=
  { p with direction := direction }

/-- What a routine does, for one dialect. A body must declare its dialect; one that does not is
left for validation to report. -/
structure Body where
  dialect : Option Dialect := none
  language : String := ""
  text : String
deriving DecidableEq

instance : Keyed Body Dialect := ⟨Body.dialect⟩

instance : Comparable Body where
  equalFor dialect a b :=
    a.dialect == some dialect && Identity.sameAs a b && Name.same a.language b.language &&
      Text.sameTrimmed a.text b.text

end Routine

/-- A routine of a schema. -/
structure Routine where
  name : String
  owner : String := ""
  description : String := ""
  returns : String := ""
  cachePolicy : String := ""
  securityDefiner : Bool := false
  parameters : List Routine.Parameter := []
  bodies : List Routine.Body := []
  grants : List Grant := []
deriving DecidableEq

namespace Routine

def withParameter (r : Routine) (parameter : Parameter) : Routine :=
  { r with parameters := r.parameters ++ [parameter] }

def withBody (r : Routine) (body : Body) : Routine := { r with bodies := r.bodies ++ [body] }

/-- The body of the routine for a dialect: the first one listed for it. -/
def bodyFor (r : Routine) (dialect : Dialect) : Option Body :=
  r.bodies.find? fun body => body.dialect == some dialect

/-- Whether two routines have one signature. -/
def sameSignature (a b : Routine) : Bool :=
  Name.same a.name b.name && agreeList Parameter.same a.parameters b.parameters

/-- Whether two routines have bodies for a common dialect. -/
def shareDialect (a b : Routine) : Bool :=
  a.bodies.any fun body => b.bodies.any fun other => Identity.sameAs body other

/-- The signature as messages show it: `name(type, type)`. -/
def signature (r : Routine) : String :=
  r.name ++ "(" ++ ", ".intercalate (r.parameters.map Parameter.type) ++ ")"

end Routine

instance : Identity Routine where
  sameAs a b := a.sameSignature b && a.shareDialect b

instance : Comparable Routine where
  equalFor dialect a b :=
    bothPresent (Comparable.equalFor dialect) (a.bodyFor dialect) (b.bodyFor dialect) &&
      a.sameSignature b && Name.same a.owner b.owner && Name.same a.returns b.returns &&
      Name.same a.cachePolicy b.cachePolicy && a.securityDefiner == b.securityDefiner

end LayeredSchema
