import LayeredSchema.Proofs.Overlay.Siblings

/-!
# Where the children of a layer land

`Siblings.overlay` lets the children of a layer land one after another, each on
siblings that the ones before it have changed. Here the places are fixed
beforehand: a child lands on the first sibling of the base that it is the same
as (`landing?`), the base taken as it was before anything landed. `overlay_eq`
says that this comes to the same. Each sibling of the base keeps its position
and takes, in the order of the layer, the children that land there
(`landingAt`), and behind the base stand the children that land nowhere
(`landingNowhere`).

All it takes is that siblings are steady for the layer and for the parts of it
that they leave to each other (`AlwaysSteady`). That holds of every layer of a
transitive kind, and of a distinct layer of any kind.
-/

namespace LayeredSchema.Siblings

variable {α : Type} [Identity α]

/-- The position of the first sibling that a child is the same as. -/
def landing? (base : List α) (child : α) : Option Nat :=
  base.findIdx? fun b => Identity.sameAs b child

/-- The children of a layer that land at a position of the base. -/
def landingAt (base : List α) (i : Nat) (layer : List α) : List α :=
  layer.filter fun child => landing? base child = some i

/-- The children of a layer that are the same as nothing in the base. -/
def landingNowhere (base layer : List α) : List α :=
  layer.filter fun child => landing? base child = none

/-! ## Places -/

section Places

variable {b child : α} {rest base layer : List α} {i : Nat}

theorem landing?_cons : landing? (b :: rest) child =
    if Identity.sameAs b child then some 0 else (landing? rest child).map (· + 1) := by
  unfold landing?
  rw [List.findIdx?_cons]

theorem landing?_eq_none_iff :
    landing? base child = none ↔ ∀ b ∈ base, ¬ Identity.sameAs b child := by
  simp [landing?, List.findIdx?_eq_none_iff]

/-- A child that lands is the same as the sibling at its place, and as none before. -/
theorem landing?_eq_some_iff : landing? base child = some i ↔
    ∃ b, base[i]? = some b ∧ Identity.sameAs b child ∧
      ∀ j < i, ∀ e, base[j]? = some e → ¬ Identity.sameAs e child := by
  unfold landing?
  rw [List.findIdx?_eq_some_iff_getElem]
  constructor
  · rintro ⟨hi, hsame, hbefore⟩
    refine ⟨base[i], List.getElem?_eq_getElem hi, hsame, fun j hj e he => ?_⟩
    obtain ⟨hjlt, rfl⟩ := List.getElem?_eq_some_iff.mp he
    exact hbefore j hj
  · rintro ⟨b, hb, hsame, hbefore⟩
    obtain ⟨hi, rfl⟩ := List.getElem?_eq_some_iff.mp hb
    refine ⟨hi, hsame, fun j hj => ?_⟩
    exact hbefore j hj _ (List.getElem?_eq_getElem (Nat.lt_trans hj hi))

theorem landingAt_cons_zero :
    landingAt (b :: rest) 0 layer = layer.filter (Identity.sameAs b) := by
  unfold landingAt
  refine List.filter_congr fun child _ => ?_
  rw [landing?_cons]
  cases Identity.sameAs b child <;> simp

theorem landingAt_cons_succ : landingAt (b :: rest) (i + 1) layer =
    landingAt rest i (layer.filter fun child => !Identity.sameAs b child) := by
  unfold landingAt
  rw [List.filter_filter]
  refine List.filter_congr fun child _ => ?_
  rw [landing?_cons]
  cases Identity.sameAs b child <;> simp

theorem landingNowhere_nil : landingNowhere [] layer = layer :=
  List.filter_eq_self.mpr fun _ _ => rfl

theorem landingNowhere_cons : landingNowhere (b :: rest) layer =
    landingNowhere rest (layer.filter fun child => !Identity.sameAs b child) := by
  unfold landingNowhere
  rw [List.filter_filter]
  refine List.filter_congr fun child _ => ?_
  rw [landing?_cons]
  cases Identity.sameAs b child <;> simp

theorem landingAt_sublist : (landingAt base i layer).Sublist layer :=
  List.filter_sublist

theorem landingAt_eq_nil_iff :
    landingAt base i layer = [] ↔ ∀ child ∈ layer, landing? base child ≠ some i := by
  unfold landingAt
  rw [List.filter_eq_nil_iff]
  simp only [decide_eq_true_eq, ne_eq]

/-- What lands at a position is the same as the sibling there. -/
theorem sameAs_of_mem_landingAt (hb : base[i]? = some b)
    (hchild : child ∈ landingAt base i layer) : Identity.sameAs b child := by
  obtain ⟨-, hland⟩ := List.mem_filter.mp hchild
  obtain ⟨b', hb', hsame, -⟩ := landing?_eq_some_iff.mp (of_decide_eq_true hland)
  obtain rfl : b' = b := Option.some.inj (hb'.symm.trans hb)
  exact hsame

/-- Nothing lands on a sibling that no child of the layer is the same as. -/
theorem landingAt_eq_nil (hb : base[i]? = some b)
    (h : ∀ child ∈ layer, ¬ Identity.sameAs b child) : landingAt base i layer = [] := by
  rw [List.eq_nil_iff_forall_not_mem]
  intro child hchild
  exact h child (landingAt_sublist.mem hchild) (sameAs_of_mem_landingAt hb hchild)

end Places

/-! ## All children at once -/

variable [Overlay α]

/-- Every sibling is steady for the layer and for each part of it. -/
def AlwaysSteady (layer : List α) : Prop :=
  ∀ (b : α) (part : List α), part.Sublist layer → Steady b part

theorem AlwaysSteady.sublist {layer part : List α} (h : AlwaysSteady layer)
    (hpart : part.Sublist layer) : AlwaysSteady part :=
  fun b less hless => h b less (hless.trans hpart)

theorem alwaysSteady_of_distinct [LawfulOverlay α] {layer : List α} (h : Distinct layer) :
    AlwaysSteady layer :=
  fun b _ hpart => steady_of_distinct (h.sublist hpart) b

theorem alwaysSteady_of_trans [LawfulOverlay α] [TransIdentity α] (layer : List α) :
    AlwaysSteady layer :=
  fun b part _ => steady_of_trans b part

variable {base layer : List α}

/-- **Layers in two phases.** The siblings of the base stand where they stood, each
with the children laid over it that land on it; the others follow. -/
theorem overlay_eq (h : AlwaysSteady layer) :
    overlay base layer =
      (base.mapIdx fun i b => (landingAt base i layer).foldl Overlay.overlay b) ++
        landingNowhere base layer := by
  induction base generalizing layer with
  | nil => rw [overlay_nil, List.mapIdx_nil, List.nil_append, landingNowhere_nil]
  | cons b rest ih =>
    have hleft : (layer.filter fun child => !Identity.sameAs b child).Sublist layer :=
      List.filter_sublist
    rw [overlay_cons (h b layer (List.Sublist.refl layer)), ih (h.sublist hleft),
      List.mapIdx_cons, landingAt_cons_zero, landingNowhere_cons, List.cons_append]
    simp only [landingAt_cons_succ]

theorem getElem?_overlay (h : AlwaysSteady layer) {i : Nat} {b : α} (hb : base[i]? = some b) :
    (overlay base layer)[i]? = some ((landingAt base i layer).foldl Overlay.overlay b) := by
  obtain ⟨hi, rfl⟩ := List.getElem?_eq_some_iff.mp hb
  rw [overlay_eq h, List.getElem?_append_left (by rwa [List.length_mapIdx]), List.getElem?_mapIdx,
    List.getElem?_eq_getElem hi, Option.map_some]

theorem drop_overlay (h : AlwaysSteady layer) :
    (overlay base layer).drop base.length = landingNowhere base layer := by
  have hlength : (base.mapIdx fun i b =>
      (landingAt base i layer).foldl Overlay.overlay b).length = base.length := List.length_mapIdx
  rw [overlay_eq h, ← hlength, List.drop_left]

theorem length_le_overlay (h : AlwaysSteady layer) :
    base.length ≤ (overlay base layer).length := by
  rw [overlay_eq h, List.length_append, List.length_mapIdx]
  exact Nat.le_add_right _ _

end LayeredSchema.Siblings
