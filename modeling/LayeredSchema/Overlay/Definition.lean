import LayeredSchema.Entity.Definition
import LayeredSchema.Overlay.Rows
import LayeredSchema.Overlay.Siblings

/-!
# Layers over definitions

What each kind of entity comes to with another one laid over it. An entity keeps its name as it
was first spelled. What it says of itself is what the layer says; its children are overlaid as
siblings; its grants are those of the base followed by those of the layer. The foreign keys of
a table are replaced as a whole, for they need not have names to tell them apart by. `stack`
folds documents from the first to the last.
-/

namespace LayeredSchema

instance : Overlay Column := .replacing
instance : Overlay Index := .replacing
instance : Overlay Constraint := .replacing
instance : Overlay StorageOption := .replacing
instance : Overlay UserType := .replacing
instance : Overlay Trigger := .replacing
instance : Overlay Routine.Body := .replacing
instance : Overlay View.Query := .replacing
instance : Overlay Setting := .replacing
instance : Overlay Language := .replacing

/-- The rows of a table with those of a layer laid over them, where both have any. -/
def RowBlock.overlayOption (primaryKey : List String) :
    Option RowBlock → Option RowBlock → Option RowBlock
  | some base, some layer => some (overlay primaryKey base layer)
  | none, some layer => some layer
  | base, none => base

/-- Rows are matched by the primary key that the layer declares. -/
instance : Overlay Table where
  overlay base layer :=
    { layer with
      name := base.name
      options := Siblings.overlay base.options layer.options
      columns := Siblings.overlay base.columns layer.columns
      indexes := Siblings.overlay base.indexes layer.indexes
      constraints := Siblings.overlay base.constraints layer.constraints
      grants := base.grants ++ layer.grants
      rows := RowBlock.overlayOption layer.primaryKey base.rows layer.rows }

instance : Overlay Sequence where
  overlay base layer := { layer with name := base.name, grants := base.grants ++ layer.grants }

instance : Overlay Routine where
  overlay base layer :=
    { layer with
      name := base.name
      bodies := Siblings.overlay base.bodies layer.bodies
      grants := base.grants ++ layer.grants }

instance : Overlay View where
  overlay base layer :=
    { layer with
      name := base.name
      queries := Siblings.overlay base.queries layer.queries
      grants := base.grants ++ layer.grants }

instance : Overlay Schema where
  overlay base layer :=
    { layer with
      name := base.name
      tables := Siblings.overlay base.tables layer.tables
      types := Siblings.overlay base.types layer.types
      sequences := Siblings.overlay base.sequences layer.sequences
      routines := Siblings.overlay base.routines layer.routines
      triggers := Siblings.overlay base.triggers layer.triggers
      views := Siblings.overlay base.views layer.views
      grants := base.grants ++ layer.grants }

/-- The base followed by each element of the layer that resembles none before it. -/
def appendNew {α : Type} (same : α → α → Bool) (base layer : List α) : List α :=
  layer.foldl (fun kept a => if kept.any fun b => same b a then kept else kept ++ [a]) base

/-- The well-known roles are those of the layer; custom roles are only ever added. -/
instance : Overlay Roles where
  overlay base layer := { layer with custom := appendNew Name.same base.custom layer.custom }

instance : Overlay Database where
  overlay base layer :=
    { dialect := layer.dialect <|> base.dialect
      roles :=
        match base.roles, layer.roles with
        | some base, some layer => some (Overlay.overlay base layer)
        | base, layer => layer <|> base
      settings := Siblings.overlay base.settings layer.settings }

/-- A snippet that the base has already is not repeated. -/
instance : Overlay Definition where
  overlay base layer :=
    { database :=
        match layer.database with
        | some database => some (Overlay.overlay (base.database.getD {}) database)
        | none => base.database
      schemas := Siblings.overlay base.schemas layer.schemas
      languages := Siblings.overlay base.languages layer.languages
      snippets := appendNew Identity.sameAs base.snippets layer.snippets }

namespace Definition

/-- What documents come to, each laid over the ones before it. -/
def stack : List Definition → Definition
  | [] => empty
  | base :: layers => layers.foldl Overlay.overlay base

end Definition

end LayeredSchema
