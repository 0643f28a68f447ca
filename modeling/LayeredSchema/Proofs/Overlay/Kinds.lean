import LayeredSchema.Overlay.Definition
import LayeredSchema.Proofs.Overlay.Siblings

/-!
# The law of layers, kind by kind

Every kind that layers are laid over obeys `LawfulOverlay`. A kind that is
replaced takes the key of the layer, which is that of the base; a kind that
keeps its name keeps its key.

Routines have no key. What takes its place is the signature up to case
(`Routine.signatureKey`) together with the dialects that a routine has bodies
for (`Routine.Speaks`): two routines are the same if they agree in the one and
have one of the other in common (`sameAs_routine_iff`). An overlay speaks the
dialects of both its parts (`speaks_overlay_iff`), which is how it comes to be
the same as routines that its base was not.
-/

namespace LayeredSchema

/-! ## Kinds with keys -/

theorem LawfulOverlay.of_replacing {α κ : Type} [Keyed α κ] [DecidableEq κ] [Overlay α]
    (h : ∀ base layer : α, Overlay.overlay base layer = layer) : LawfulOverlay α :=
  .of_key fun base layer hsame => by rw [h, ← key_eq_of_sameAs hsame]

instance : LawfulOverlay Column := .of_replacing fun _ _ => rfl
instance : LawfulOverlay Index := .of_replacing fun _ _ => rfl
instance : LawfulOverlay Constraint := .of_replacing fun _ _ => rfl
instance : LawfulOverlay StorageOption := .of_replacing fun _ _ => rfl
instance : LawfulOverlay UserType := .of_replacing fun _ _ => rfl
instance : LawfulOverlay Trigger := .of_replacing fun _ _ => rfl
instance : LawfulOverlay Routine.Body := .of_replacing fun _ _ => rfl
instance : LawfulOverlay View.Query := .of_replacing fun _ _ => rfl
instance : LawfulOverlay Setting := .of_replacing fun _ _ => rfl
instance : LawfulOverlay Language := .of_replacing fun _ _ => rfl

instance : LawfulOverlay Table := .of_key fun _ _ _ => rfl
instance : LawfulOverlay Sequence := .of_key fun _ _ _ => rfl
instance : LawfulOverlay View := .of_key fun _ _ _ => rfl
instance : LawfulOverlay Schema := .of_key fun _ _ _ => rfl

/-! ## Routines -/

namespace Routine

/-- A parameter up to the case of its names. -/
def Parameter.key (p : Parameter) : String × String × Direction :=
  (Name.fold p.name, Name.fold p.type, p.direction)

/-- A signature up to the case of its names. -/
def signatureKey (r : Routine) : String × List (String × String × Direction) :=
  (Name.fold r.name, r.parameters.map Parameter.key)

/-- The routine has a body for the dialect. -/
def Speaks (r : Routine) (dialect : Dialect) : Prop :=
  ∃ body ∈ r.bodies, body.dialect = some dialect

theorem Parameter.same_iff {a b : Parameter} : Parameter.same a b ↔ a.key = b.key := by
  simp [Parameter.same, Parameter.key, Name.same_iff, and_assoc]

theorem agreeList_same_iff {a b : List Parameter} :
    agreeList Parameter.same a b ↔ a.map Parameter.key = b.map Parameter.key :=
  agreeList_iff fun p q => Parameter.same_iff (a := p) (b := q)

theorem sameSignature_iff {a b : Routine} :
    a.sameSignature b ↔ a.signatureKey = b.signatureKey := by
  simp [sameSignature, signatureKey, Name.same_iff, agreeList_same_iff]

theorem sameAs_body_iff {body : Body} {dialect : Dialect} {language text : String} :
    Identity.sameAs body ⟨some dialect, language, text⟩ ↔ body.dialect = some dialect := by
  rw [sameAs_iff_key]
  constructor
  · intro h
    obtain ⟨k, hbody, hk⟩ := h
    exact hbody.trans hk.symm
  · intro h
    exact ⟨dialect, h, rfl⟩

theorem shareDialect_iff {a b : Routine} :
    a.shareDialect b ↔ ∃ dialect, a.Speaks dialect ∧ b.Speaks dialect := by
  simp only [shareDialect, List.any_eq_true, sameAs_iff_key, Speaks]
  constructor
  · intro h
    obtain ⟨body, hbody, other, hother, dialect, hd, hd'⟩ := h
    exact ⟨dialect, ⟨body, hbody, hd⟩, other, hother, hd'⟩
  · intro h
    obtain ⟨dialect, ⟨body, hbody, hd⟩, other, hother, hd'⟩ := h
    exact ⟨body, hbody, other, hother, dialect, hd, hd'⟩

theorem sameAs_routine_iff {a b : Routine} :
    Identity.sameAs a b ↔ a.signatureKey = b.signatureKey ∧
      ∃ dialect, a.Speaks dialect ∧ b.Speaks dialect := by
  rw [← sameSignature_iff, ← shareDialect_iff]
  exact Bool.and_eq_true_iff

theorem isSome_bodyFor_iff {r : Routine} {dialect : Dialect} :
    (r.bodyFor dialect).isSome ↔ r.Speaks dialect := by
  simp [bodyFor, Speaks]

/-- An overlay has the signature of its layer under the name of its base, which is
the same up to case. -/
theorem signatureKey_overlay {base layer : Routine}
    (h : base.signatureKey = layer.signatureKey) :
    (Overlay.overlay base layer).signatureKey = base.signatureKey := by
  unfold signatureKey at h ⊢
  rw [Prod.mk.injEq] at h ⊢
  exact ⟨rfl, h.2.symm⟩

/-- An overlay speaks the dialects of its base and those of its layer. -/
theorem speaks_overlay_iff {base layer : Routine} {dialect : Dialect} :
    (Overlay.overlay base layer).Speaks dialect ↔ base.Speaks dialect ∨ layer.Speaks dialect := by
  have hbodies : (∃ body ∈ Siblings.overlay base.bodies layer.bodies,
      Identity.sameAs body (⟨some dialect, "", ""⟩ : Body)) ↔ _ := Siblings.exists_sameAs_overlay
  simp only [sameAs_body_iff] at hbodies
  exact hbodies

end Routine

open Routine (sameAs_routine_iff signatureKey_overlay speaks_overlay_iff)

instance : SymmIdentity Routine where
  symm h := by
    obtain ⟨hsig, dialect, ha, hb⟩ := sameAs_routine_iff.mp h
    exact sameAs_routine_iff.mpr ⟨hsig.symm, dialect, hb, ha⟩

instance : LawfulOverlay Routine where
  sameAs_overlay {base layer other} hsame := by
    obtain ⟨hsig, -⟩ := sameAs_routine_iff.mp hsame
    simp only [sameAs_routine_iff, signatureKey_overlay hsig, speaks_overlay_iff, ← hsig,
      or_and_right, exists_or, ← and_or_left]

end LayeredSchema
