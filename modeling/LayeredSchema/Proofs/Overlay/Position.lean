import LayeredSchema.Proofs.Overlay.Landing
import LayeredSchema.Proofs.Overlay.Regroup

/-!
# The tables of a base under a layer

A layer may name a schema more than once, and a table more than once in each of
them. All the same, a table of the base stays where it is, and what it becomes is
determined by the tables that land on it: those of all schemas that land on its
schema, in their order (`Definition.landedOn`).

That the places can be read off the base holds although the schemas land one after
another: what a later one finds in a place of the base is the same as what was
there at first (`Siblings.landingAt_overlay`).
-/

namespace LayeredSchema

namespace Siblings

variable {α : Type} [Identity α] [Overlay α] [LawfulOverlay α] [TransIdentity α]
  {base layer part : List α} {i : Nat} {b r child : α}

/-- The successor of a sibling is the same as whatever the sibling was the same as. -/
theorem sameAs_of_getElem?_overlay (hb : base[i]? = some b)
    (hr : (overlay base layer)[i]? = some r) : Identity.sameAs r = Identity.sameAs b := by
  rw [getElem?_overlay (alwaysSteady_of_trans layer) hb] at hr
  obtain rfl := Option.some.inj hr
  exact sameAs_foldl_overlay_of_trans fun _ hchild => sameAs_of_mem_landingAt hb hchild

/-- A child lands in a place of the base before a layer if it does after it. -/
theorem landing?_overlay_eq_some_iff (hi : i < base.length) :
    landing? (overlay base layer) child = some i ↔ landing? base child = some i := by
  have hsucc : ∀ j < base.length, ∃ b r, base[j]? = some b ∧ (overlay base layer)[j]? = some r ∧
      Identity.sameAs r child = Identity.sameAs b child := by
    intro j hj
    have hb := List.getElem?_eq_getElem hj
    have hr := getElem?_overlay (alwaysSteady_of_trans layer) hb
    exact ⟨_, _, hb, hr, congrFun (sameAs_of_getElem?_overlay hb hr) child⟩
  rw [landing?_eq_some_iff, landing?_eq_some_iff]
  obtain ⟨b, r, hb, hr, hsame⟩ := hsucc i hi
  simp only [hb, hr, Option.some.injEq, exists_eq_left', hsame]
  refine and_congr_right fun _ => forall_congr' fun j => imp_congr_right fun hj => ?_
  obtain ⟨b', r', hb', hr', hsame'⟩ := hsucc j (Nat.lt_trans hj hi)
  simp only [hb', hr', Option.some.injEq, forall_eq', hsame']

theorem landingAt_overlay (hi : i < base.length) :
    landingAt (overlay base layer) i part = landingAt base i part := by
  unfold landingAt
  refine List.filter_congr fun child _ => ?_
  rw [Bool.eq_iff_iff, decide_eq_true_iff, decide_eq_true_iff]
  exact landing?_overlay_eq_some_iff hi

/-- Layer after layer, a sibling takes what lands in its place from any of them. -/
theorem getElem?_foldl_overlay {layers : List (List α)} (hb : base[i]? = some b) :
    (layers.foldl overlay base)[i]? =
      some ((landingAt base i layers.flatten).foldl Overlay.overlay b) := by
  induction layers generalizing base b with
  | nil => exact hb
  | cons layer layers ih =>
    have hnext := getElem?_overlay (alwaysSteady_of_trans layer) hb
    obtain ⟨hi, -⟩ := List.getElem?_eq_some_iff.mp hb
    rw [List.foldl_cons, ih hnext, landingAt_overlay hi, List.flatten_cons, landingAt, landingAt,
      landingAt, List.filter_append, List.foldl_append]

end Siblings

open Siblings (landingAt alwaysSteady_of_trans getElem?_overlay getElem?_foldl_overlay)

namespace Schema

theorem name_foldl_overlay {s : Schema} {landed : List Schema} :
    (landed.foldl Overlay.overlay s).name = s.name := by
  induction landed generalizing s with
  | nil => rfl
  | cons layer landed ih =>
    rw [List.foldl_cons, ih]
    rfl

theorem tables_foldl_overlay {s : Schema} {landed : List Schema} :
    (landed.foldl Overlay.overlay s).tables =
      (landed.map Schema.tables).foldl Siblings.overlay s.tables := by
  induction landed generalizing s with
  | nil => rfl
  | cons layer landed ih =>
    rw [List.foldl_cons, ih]
    rfl

end Schema

namespace Definition

/-- The tables of a layer that land on the table at position `j` of the schema `s`, which
stands at position `i` of the base. -/
def landedOn (base : Definition) (i : Nat) (s : Schema) (j : Nat) (layer : Definition) :
    List Table :=
  landingAt s.tables j ((landingAt base.schemas i layer.schemas).flatMap Schema.tables)

variable {base : Definition} {i j : Nat} {s : Schema} {t : Table}

/-- A schema of the base has a successor in its place. -/
theorem schema_overlay (layer : Definition) (hs : base.schemas[i]? = some s) :
    (Overlay.overlay base layer).schemas[i]? =
      some ((landingAt base.schemas i layer.schemas).foldl Overlay.overlay s) :=
  getElem?_overlay (alwaysSteady_of_trans layer.schemas) hs

/-- **Tables stay in their places.** A table of the base becomes what the tables that land
on it make of it. -/
theorem table_overlay (layer : Definition) (hs : base.schemas[i]? = some s)
    (ht : s.tables[j]? = some t) :
    ∃ r, (Overlay.overlay base layer).schemas[i]? = some r ∧ r.name = s.name ∧
      r.tables[j]? = some ((base.landedOn i s j layer).foldl Overlay.overlay t) := by
  refine ⟨_, schema_overlay layer hs, Schema.name_foldl_overlay, ?_⟩
  rw [Schema.tables_foldl_overlay, getElem?_foldl_overlay ht]
  rfl

end Definition

end LayeredSchema
