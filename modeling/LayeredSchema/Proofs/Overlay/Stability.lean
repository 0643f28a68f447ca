import LayeredSchema.Proofs.Overlay.Kinds
import LayeredSchema.Proofs.Overlay.Landing
import Mathlib.Data.Set.Basic

/-!
# What lands on a declaration leaves it the same

The children of a layer land one after another, and each of them is compared with what the ones
before it have made of the base. That this does not matter rests on sameness: what a declaration
comes to is the same as the declaration itself and as what was laid over it, and it loses nothing
that was the same as it (`StableSameness`). It follows for all kinds at once from their law
(`stableSameness_of_lawful`).

A kind known by a key gains nothing either, since sameness is transitive there. So a child may as
well be given its place before any child has landed (`Siblings.overlay_two_phases`). Routines are
the exception: a routine that takes a body for another dialect is the same as more routines than
before, and draws children that would have gone to another one.
-/

namespace LayeredSchema

/-! ## Every kind -/

/-- A property of kinds holds of every kind that is known by a key and laid over others. -/
def OfKeyedKinds (P : (α : Type) → [Identity α] → [Overlay α] → Prop) : Prop :=
  P Schema ∧ P Table ∧ P Column ∧ P Index ∧ P Constraint ∧ P StorageOption ∧ P UserType ∧
    P Trigger ∧ P Sequence ∧ P View ∧ P Routine.Body ∧ P View.Query ∧ P Setting ∧ P Language

/-- What follows from the law and from transitivity holds of all of them. -/
theorem ofKeyedKinds_of_lawful {P : (α : Type) → [Identity α] → [Overlay α] → Prop}
    (h : ∀ (α : Type) [Identity α] [Overlay α] [LawfulOverlay α] [TransIdentity α], P α) :
    OfKeyedKinds P :=
  ⟨h Schema, h Table, h Column, h Index, h Constraint, h StorageOption, h UserType, h Trigger,
    h Sequence, h View, h Routine.Body, h View.Query, h Setting, h Language⟩

/-! ## Sameness under a layer -/

/-- What a declaration comes to is the same as the declaration and as the layer, and everything
that was the same as the declaration is the same as it. -/
structure StableSameness (α : Type) [Identity α] [Overlay α] : Prop where
  base : ∀ base layer : α, Identity.sameAs base layer →
    Identity.sameAs (Overlay.overlay base layer) base
  layer : ∀ base layer : α, Identity.sameAs base layer →
    Identity.sameAs (Overlay.overlay base layer) layer
  sibling : ∀ base layer sibling : α, Identity.sameAs base layer →
    Identity.sameAs sibling base → Identity.sameAs sibling (Overlay.overlay base layer)

theorem stableSameness_of_lawful (α : Type) [Identity α] [Overlay α] [LawfulOverlay α] :
    StableSameness α where
  base _ _ h := (LawfulOverlay.sameAs_overlay h).mpr (.inr (SymmIdentity.symm h))
  layer _ _ h := (LawfulOverlay.sameAs_overlay h).mpr (.inl h)
  sibling _ _ _ h hsibling :=
    SymmIdentity.symm ((LawfulOverlay.sameAs_overlay h).mpr (.inl (SymmIdentity.symm hsibling)))

namespace Routine

/-- A routine for one dialect, the same routine for two, and for the other one of these. -/
def overloads : Fin 3 → Routine
  | 0 => { name := "total", bodies := [{ dialect := some .pgsql8, text := "1" }] }
  | 1 => { name := "Total", bodies := [{ dialect := some .pgsql8, text := "2" },
      { dialect := some .mssql10, text := "3" }] }
  | 2 => { name := "TOTAL", bodies := [{ dialect := some .mssql10, text := "4" }] }

theorem not_transIdentity : ¬ TransIdentity Routine := by
  intro h
  have hsame : Identity.sameAs (overloads 0) (overloads 2) :=
    h.trans (b := overloads 1) (by decide +kernel) (by decide +kernel)
  exact absurd hsame (by decide +kernel)

/-- Under one signature, sameness of routines is that their dialects meet. -/
theorem sameAs_iff_dialects_meet {a b : Routine} (h : a.sameSignature b) :
    Identity.sameAs a b ↔
      ({dialect | a.Speaks dialect} ∩ {dialect | b.Speaks dialect}).Nonempty := by
  rw [sameAs_routine_iff, and_iff_right (sameSignature_iff.mp h)]
  rfl

end Routine

/-- **Sameness is stable.** For every kind that layers are laid over, what a declaration comes to
is the same as both its parts and as all that the declaration was the same as. Sameness is
symmetric for every kind, and transitive for all but routines; routines of one signature are the
same exactly if they have a dialect in common. -/
theorem sameness_stable :
    (OfKeyedKinds @StableSameness ∧ StableSameness Routine) ∧
    (OfKeyedKinds (fun α _ _ => SymmIdentity α) ∧ SymmIdentity Routine ∧
      SymmIdentity ForeignKey ∧ SymmIdentity Snippet) ∧
    (OfKeyedKinds (fun α _ _ => TransIdentity α) ∧ ¬ TransIdentity Routine ∧
      TransIdentity ForeignKey ∧ TransIdentity Snippet) ∧
    ∀ a b : Routine, a.sameSignature b → (Identity.sameAs a b ↔
      ({dialect | a.Speaks dialect} ∩ {dialect | b.Speaks dialect}).Nonempty) := by
  refine ⟨⟨ofKeyedKinds_of_lawful fun α => stableSameness_of_lawful α,
      stableSameness_of_lawful Routine⟩, ⟨?_, inferInstance, inferInstance, inferInstance⟩,
    ⟨?_, Routine.not_transIdentity, inferInstance, inferInstance⟩,
    fun a b => Routine.sameAs_iff_dialects_meet⟩
  · exact ofKeyedKinds_of_lawful fun α _ _ _ _ => inferInstance
  · exact ofKeyedKinds_of_lawful fun α _ _ _ _ => inferInstance

/-- The routine for one dialect takes the one for two, and stays the same as itself. -/
theorem sameness_stable_overloads :
    Identity.sameAs (Routine.overloads 0) (Routine.overloads 1) ∧
    Identity.sameAs (Overlay.overlay (Routine.overloads 0) (Routine.overloads 1))
      (Routine.overloads 0) ∧
    (Routine.overloads 0).sameSignature (Routine.overloads 2) ∧
    ¬ ({dialect | (Routine.overloads 0).Speaks dialect} ∩
      {dialect | (Routine.overloads 2).Speaks dialect}).Nonempty := by
  obtain ⟨⟨-, hstable⟩, -, -, hmeet⟩ := sameness_stable
  have hsame : Identity.sameAs (Routine.overloads 0) (Routine.overloads 1) := by decide +kernel
  have hsignature : (Routine.overloads 0).sameSignature (Routine.overloads 2) := by
    decide +kernel
  refine ⟨hsame, hstable.base _ _ hsame, hsignature, ?_⟩
  rw [← hmeet _ _ hsignature]
  decide +kernel

/-! ## Places given beforehand -/

namespace Siblings

section OneList

variable {α : Type} [Identity α] [Overlay α]

/-- One child of a layer lands in a list of siblings that holds the base, in as many places as
it had to begin with, and what was added behind it. -/
def landWithin (places : Nat) (siblings : List α) (child : α) : List α :=
  match modifyFirst? (fun base => Identity.sameAs base child)
      (fun base => Overlay.overlay base child) (siblings.take places) with
  | some kept => kept ++ siblings.drop places
  | none => siblings ++ [child]

theorem length_kept_land (s : Landing α) (child : α) :
    (land s child).kept.length = s.kept.length := by
  unfold land
  split
  next kept hkept => exact length_modifyFirst? hkept
  next => rfl

theorem landWithin_eq (s : Landing α) (child : α) :
    landWithin s.kept.length (s.kept ++ s.added) child =
      (land s child).kept ++ (land s child).added := by
  unfold landWithin land
  rw [List.take_left, List.drop_left]
  cases modifyFirst? (fun base => Identity.sameAs base child)
      (fun base => Overlay.overlay base child) s.kept with
  | some kept => rfl
  | none => exact List.append_assoc s.kept s.added [child]

/-- **One growing list.** What is added may as well stand in the list that is searched, as long
as the search ends with the base. -/
theorem overlay_eq_foldl_landWithin (base layer : List α) :
    overlay base layer = layer.foldl (landWithin base.length) base := by
  have hfold : ∀ s : Landing α, (layer.foldl land s).kept ++ (layer.foldl land s).added =
      layer.foldl (landWithin s.kept.length) (s.kept ++ s.added) := by
    induction layer with
    | nil => exact fun s => rfl
    | cons child layer ih =>
      intro s
      rw [List.foldl_cons, List.foldl_cons, ih, landWithin_eq, length_kept_land]
  have hstart := hfold ⟨base, []⟩
  rwa [List.append_nil] at hstart

end OneList

/-- A layer over siblings of the kind comes to the same as in two phases: every child is given
the first sibling of the base that it is the same as, the base taken as it is; then every sibling
takes the children that it was given, in their order, and the children that were given none
follow. -/
def TwoPhases (α : Type) [Identity α] [Overlay α] : Prop :=
  ∀ base layer : List α, overlay base layer =
    (base.mapIdx fun i b => (landingAt base i layer).foldl Overlay.overlay b) ++
      landingNowhere base layer

/-- The second routine that lands would have gone to the second of the base, if the first one
had not changed the first. -/
theorem not_twoPhases_routine : ¬ TwoPhases Routine := by
  intro h
  have hroutines := h [Routine.overloads 0, Routine.overloads 2]
    [Routine.overloads 1, { Routine.overloads 2 with owner := "later" }]
  exact absurd hroutines (by decide +kernel)

/-- **Layers in two phases.** Children land one by one in a list that grows, and are compared
with siblings of the base that have changed. For every kind but routines, and for siblings that
may repeat themselves on both sides, their places can as well be given beforehand. -/
theorem overlay_two_phases :
    (∀ (α : Type) [Identity α] [Overlay α] (base layer : List α),
      overlay base layer = layer.foldl (landWithin base.length) base) ∧
    OfKeyedKinds @TwoPhases ∧ ¬ TwoPhases Routine :=
  ⟨fun _ _ _ base layer => overlay_eq_foldl_landWithin base layer,
    ofKeyedKinds_of_lawful fun _ _ _ _ _ _ layer => overlay_eq (alwaysSteady_of_trans layer),
    not_twoPhases_routine⟩

end Siblings

end LayeredSchema
