import LayeredSchema.Siblings

/-!
# Layers over siblings

`Overlay.overlay base layer` is what a declaration comes to when another one is laid over it.
For siblings, each child of the layer lands on the first sibling of the base that it is the
same as, and is added at the end if there is none. Only siblings of the base are landed on: a
child that an earlier child of the same layer resembles is added beside it, and the pair is
left for validation to report. No sibling of the base is ever removed or moved.
-/

namespace LayeredSchema

/-- A kind of declaration that others of its kind are laid over. -/
class Overlay (α : Type) where
  overlay : (base layer : α) → α

/-- The overlay of a kind that has no parts of its own: the layer takes the place of the base. -/
@[reducible] def Overlay.replacing {α : Type} : Overlay α := ⟨fun _ layer => layer⟩

namespace Siblings

variable {α : Type}

/-- The siblings of a base while a layer lands on them: those of the base as they have become,
and those that the layer has added. -/
structure Landing (α : Type) where
  kept : List α
  added : List α

/-- One child of the layer lands. -/
def land [Identity α] [Overlay α] (siblings : Landing α) (child : α) : Landing α :=
  match modifyFirst? (fun base => Identity.sameAs base child)
      (fun base => Overlay.overlay base child) siblings.kept with
  | some kept => { siblings with kept := kept }
  | none => { siblings with added := siblings.added ++ [child] }

/-- A list of siblings with another one laid over it. -/
def overlay [Identity α] [Overlay α] (base layer : List α) : List α :=
  let landed := layer.foldl land ⟨base, []⟩
  landed.kept ++ landed.added

end Siblings

end LayeredSchema
