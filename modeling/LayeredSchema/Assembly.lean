import LayeredSchema.Overlay.Definition
import LayeredSchema.Validation.Check

/-!
# Assembly

`assemble` turns a stack of documents into one valid definition. Either every stage of the
stack is validated, so that a failure names the document that brought the violations in, or
only the result is, and then a failure names the last document. A definition that declares no
dialect is given the configured one at the very end.
-/

namespace LayeredSchema

/-- How a stack of documents is assembled. -/
structure AssemblyOptions where
  /-- Whether the definition is validated after each document, and not only after the last. -/
  validateEachLayer : Bool := true
  /-- The dialect of a definition that declares none. -/
  defaultDialect : Option Dialect := none
deriving DecidableEq

/-- Why documents could not be assembled. -/
inductive AssemblyError where
  | noDocuments
  /-- The definition was invalid with the document at a position, counted from zero. -/
  | invalid (index : Nat) (violations : List Violation)

/-- The failure in words. -/
def AssemblyError.message : AssemblyError → String
  | noDocuments => "No documents to composite"
  | invalid index violations =>
    s!"Document {index} produced an invalid definition: {Violation.report violations}"

namespace Definition

/-- The definition, if valid; the failure to assemble it names the document at `index`. -/
def checked (index : Nat) (d : Definition) : Except AssemblyError Definition :=
  match d.validate with
  | .ok () => .ok d
  | .error violations => .error (.invalid index violations)

/-- Lays documents over a definition, the first of them being the one at `index`, and
validates after each. -/
def layChecked (index : Nat) (base : Definition) :
    List Definition → Except AssemblyError Definition
  | [] => .ok base
  | layer :: rest => do
    let next ← checked index (Overlay.overlay base layer)
    layChecked (index + 1) next rest

/-- The definition with a dialect to fall back on where it declares none. -/
def withDefaultDialect (fallback : Option Dialect) (d : Definition) : Definition :=
  match d.dialect, fallback with
  | none, some dialect =>
    { d with database := some { d.database.getD {} with dialect := some dialect } }
  | _, _ => d

/-- Assembles documents into one valid definition. -/
def assemble (options : AssemblyOptions) : List Definition → Except AssemblyError Definition
  | [] => .error .noDocuments
  | base :: layers => do
    let result ←
      if options.validateEachLayer then do
        let base ← checked 0 base
        layChecked 1 base layers
      else checked layers.length (stack (base :: layers))
    return result.withDefaultDialect options.defaultDialect

end Definition

end LayeredSchema
