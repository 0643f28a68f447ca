import LayeredSchema.Identity

/-!
# User-defined types

A type is an enumeration of labels, a composite of fields, or a domain: a base type with
checks. A document may still fill in the *payload* of another kind; `strayPayload` lists what
does not belong, for validation to report.
-/

namespace LayeredSchema

namespace UserType

/-- A field of a composite type. -/
structure Field where
  name : String
  type : String
deriving DecidableEq

/-- Whether two fields agree in name and type. -/
def Field.same (a b : Field) : Bool := Name.same a.name b.name && Name.same a.type b.type

/-- The type that a domain narrows. -/
structure Base where
  type : String
  defaultValue : Option String := none
  nullable : Bool := true
deriving DecidableEq

/-- A named check of a domain. -/
structure Check where
  name : String
  condition : String
deriving DecidableEq

/-- The parts of a type of which each belongs to one kind. -/
inductive Payload where
  | labels | fields | base | checks
deriving DecidableEq

namespace Payload

/-- The kind of type that a payload belongs to. -/
def kind : Payload → TypeKind
  | labels => .enumeration
  | fields => .composite
  | base => .domain
  | checks => .domain

/-- The payload as messages call it. -/
def text : Payload → String
  | labels => "enum values"
  | fields => "composite fields"
  | base => "domain type"
  | checks => "domain constraints"

end Payload

end UserType

/-- A user-defined type of a schema. -/
structure UserType where
  name : String
  kind : TypeKind
  labels : List String := []
  fields : List UserType.Field := []
  base : Option UserType.Base := none
  checks : List UserType.Check := []
deriving DecidableEq

instance : Named UserType := ⟨UserType.name⟩

namespace UserType

/-- An enumeration of labels. -/
def ofLabels (name : String) (labels : List String) : UserType :=
  { name := name, kind := .enumeration, labels := labels }

/-- A composite of fields. -/
def ofFields (name : String) (fields : List Field) : UserType :=
  { name := name, kind := .composite, fields := fields }

/-- A domain over a base type. -/
def ofBase (name : String) (base : Base) : UserType :=
  { name := name, kind := .domain, base := some base }

/-- Whether a payload is filled in. -/
def carries (t : UserType) : Payload → Bool
  | .labels => !t.labels.isEmpty
  | .fields => !t.fields.isEmpty
  | .base => t.base.isSome
  | .checks => !t.checks.isEmpty

/-- The payloads that are filled in although they belong to another kind. -/
def strayPayload (t : UserType) : List Payload :=
  [Payload.labels, .fields, .base, .checks].filter fun payload =>
    payload.kind != t.kind && t.carries payload

end UserType

/-- Only the payload of the types' own kind counts. -/
instance : Comparable UserType where
  equalFor _ a b :=
    Identity.sameAs a b && a.kind == b.kind &&
      match a.kind with
      | .enumeration => a.labels == b.labels
      | .composite => agreeList UserType.Field.same a.fields b.fields
      | .domain => a.base == b.base && a.checks == b.checks

end LayeredSchema
