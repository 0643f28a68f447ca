import LayeredSchema.Assembly
import LayeredSchema.Datum.Coded

/-!
# Settings

What can be configured: how documents are assembled and how tables are ordered.
-/

namespace LayeredSchema

/-- How tables are ordered by their dependencies. -/
structure OrderOptions where
  /-- Whether a table may refer to itself; if not, that is a cycle. -/
  allowSelfReferences : Bool := true
deriving DecidableEq

/-- All settings. -/
structure Settings where
  assembly : AssemblyOptions := {}
  order : OrderOptions := {}
deriving DecidableEq

instance : Coded AssemblyOptions := Coded.record "CompositeConfig" <|
  Fields.start AssemblyOptions.mk
    |>.optional "validate_each_overlay" true AssemblyOptions.validateEachLayer
    |>.optional "default_format" none AssemblyOptions.defaultDialect

instance : Coded OrderOptions := Coded.record "OrderingConfig" <|
  Fields.start OrderOptions.mk
    |>.optional "allow_self_references" true OrderOptions.allowSelfReferences

instance : Coded Settings := Coded.record "Config" <|
  Fields.start Settings.mk
    |>.optional "composite" {} Settings.assembly
    |>.optional "ordering" {} Settings.order

end LayeredSchema
