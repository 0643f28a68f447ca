import LayeredSchema.Overlay.Siblings
import LayeredSchema.Proofs.Siblings
import Mathlib.Data.List.Basic
import Mathlib.Tactic.Tauto

/-!
# Layers over siblings, child by child

`Siblings.overlay` folds the children of a layer into a base that changes under
it. This file turns the fold into a recursion over the base:

* `overlay_cons`: the first sibling of the base takes every child of the layer
  that it is the same as, one after another; the other children go on to the
  rest of the base, and what matches nothing is added at the end
  (`overlay_nil`).

That holds while a sibling, as it takes children, stays the same as the children
still to come (`Steady`). Every kind obeys one law, `LawfulOverlay`: an overlay
is the same as whatever its base or its layer is the same as. From it a sibling
is steady for a distinct layer (`steady_of_distinct`), even of routines, whose
sameness is not transitive, and for every layer of a transitive kind
(`steady_of_trans`).

The results that later files use are `forall_overlay` (what a layer keeps),
`exists_sameAs_overlay` (what the result is the same as), `distinct_overlay_iff`
(when it is distinct), `mem_overlay_cases` and `named?_overlay` (what it holds).
-/

namespace LayeredSchema

/-- An overlay is the same as whatever its base or its layer is the same as. -/
class LawfulOverlay (α : Type) [Identity α] [Overlay α] : Prop extends SymmIdentity α where
  sameAs_overlay : ∀ {base layer other : α}, Identity.sameAs base layer →
    (Identity.sameAs (Overlay.overlay base layer) other ↔
      Identity.sameAs base other ∨ Identity.sameAs layer other)

/-- For a kind with keys it is enough that an overlay keeps the key of its base. -/
theorem LawfulOverlay.of_key {α κ : Type} [Keyed α κ] [DecidableEq κ] [Overlay α]
    (h : ∀ base layer : α, Identity.sameAs base layer →
      (Keyed.key (Overlay.overlay base layer) : Option κ) = Keyed.key base) :
    LawfulOverlay α where
  sameAs_overlay {base layer other} hsame := by
    rw [sameAs_iff_key, sameAs_iff_key, sameAs_iff_key, h base layer hsame,
      ← key_eq_of_sameAs hsame, or_self]

namespace Siblings

variable {α : Type} [Identity α] [Overlay α]

/-! ## One child lands -/

theorem land_cons_of_same {b child : α} {rest added : List α}
    (h : Identity.sameAs b child) :
    land ⟨b :: rest, added⟩ child = ⟨Overlay.overlay b child :: rest, added⟩ := by
  simp [land, modifyFirst?, h]

theorem land_cons_of_not_same {b child : α} {rest added : List α}
    (h : ¬ Identity.sameAs b child) :
    land ⟨b :: rest, added⟩ child =
      ⟨b :: (land ⟨rest, added⟩ child).kept, (land ⟨rest, added⟩ child).added⟩ := by
  unfold land
  simp only [modifyFirst?, h]
  cases modifyFirst? (fun base => Identity.sameAs base child)
    (fun base => Overlay.overlay base child) rest with
  | none => rfl
  | some kept => rfl

theorem land_nil {child : α} {added : List α} :
    land ⟨[], added⟩ child = ⟨[], added ++ [child]⟩ := rfl

/-- A child either changes the first sibling that it is the same as or is added. -/
theorem land_cases (siblings : Landing α) (child : α) :
    (∃ before b after, siblings.kept = before ++ b :: after ∧ Identity.sameAs b child ∧
      land siblings child =
        ⟨before ++ Overlay.overlay b child :: after, siblings.added⟩) ∨
    land siblings child = ⟨siblings.kept, siblings.added ++ [child]⟩ := by
  unfold land
  split
  next kept h =>
    obtain ⟨before, b, after, hkept, -, hb, rfl⟩ := modifyFirst?_eq_some h
    exact .inl ⟨before, b, after, hkept, hb, rfl⟩
  next => exact .inr rfl

/-! ## A layer over one sibling and the rest -/

/-- While a sibling takes the children of a layer that it is the same as, it does
not become the same as another child of the layer, and loses none. -/
def Steady (b : α) : List α → Prop
  | [] => True
  | child :: rest =>
    if Identity.sameAs b child then
      (∀ other ∈ rest, Identity.sameAs (Overlay.overlay b child) other = Identity.sameAs b other) ∧
        Steady (Overlay.overlay b child) rest
    else Steady b rest

theorem foldl_land_cons {b : α} {rest added layer : List α} (h : Steady b layer) :
    layer.foldl land ⟨b :: rest, added⟩ =
      let others := (layer.filter fun child => !Identity.sameAs b child).foldl land ⟨rest, added⟩
      ⟨(layer.filter (Identity.sameAs b)).foldl Overlay.overlay b :: others.kept,
        others.added⟩ := by
  induction layer generalizing b rest added with
  | nil => rfl
  | cons child layer ih =>
    unfold Steady at h
    by_cases hsame : Identity.sameAs b child
    · rw [if_pos hsame] at h
      obtain ⟨hother, hsteady⟩ := h
      -- the sibling has changed, but neither what it takes nor what it leaves
      have htake : layer.filter (Identity.sameAs (Overlay.overlay b child)) =
          layer.filter (Identity.sameAs b) := List.filter_congr hother
      have hleave : (layer.filter fun c => !Identity.sameAs (Overlay.overlay b child) c) =
          layer.filter fun c => !Identity.sameAs b c :=
        List.filter_congr fun c hc => by rw [hother c hc]
      rw [List.foldl_cons, land_cons_of_same hsame, ih hsteady, htake, hleave,
        List.filter_cons_of_pos hsame, List.foldl_cons, List.filter_cons_of_neg (by simp [hsame])]
    · rw [if_neg hsame] at h
      rw [List.foldl_cons, land_cons_of_not_same hsame, ih h, List.filter_cons_of_neg hsame,
        List.filter_cons_of_pos (by simp [hsame]), List.foldl_cons]

theorem foldl_land_nil {added layer : List α} :
    layer.foldl land ⟨[], added⟩ = ⟨[], added ++ layer⟩ := by
  induction layer generalizing added with
  | nil => simp
  | cons child layer ih =>
    rw [List.foldl_cons, land_nil, ih, List.append_assoc, List.singleton_append]

@[simp] theorem overlay_nil (layer : List α) : overlay [] layer = layer := by
  unfold overlay
  rw [foldl_land_nil]
  simp

/-- **Layers by recursion on the base.** -/
theorem overlay_cons {b : α} {rest layer : List α} (h : Steady b layer) :
    overlay (b :: rest) layer =
      (layer.filter (Identity.sameAs b)).foldl Overlay.overlay b ::
        overlay rest (layer.filter fun child => !Identity.sameAs b child) := by
  unfold overlay
  rw [foldl_land_cons h]
  rfl

/-! ## What every layer keeps -/

/-- A property of all siblings that survives the change of one of them survives a
landing. -/
theorem forall_land {P : α → Prop} {s : Landing α} {child : α}
    (hs : ∀ x ∈ s.kept ++ s.added, P x) (hchild : P child)
    (hstep : ∀ b, P b → Identity.sameAs b child → P (Overlay.overlay b child)) :
    ∀ x ∈ (land s child).kept ++ (land s child).added, P x := by
  rcases land_cases s child with ⟨before, b, after, hkept, hb, hland⟩ | hland
  · rw [hkept] at hs
    have hPb : P b := hs b (by simp)
    rw [hland]
    intro x hx
    by_cases hxb : x = Overlay.overlay b child
    · rw [hxb]
      exact hstep b hPb hb
    · refine hs x ?_
      simp only [List.mem_append, List.mem_cons] at hx ⊢
      tauto
  · rw [hland]
    intro x hx
    rw [← List.append_assoc, List.mem_append, List.mem_singleton] at hx
    rcases hx with hx | rfl
    · exact hs x hx
    · exact hchild

theorem forall_foldl_land {P : α → Prop} {s : Landing α} {layer : List α}
    (hs : ∀ x ∈ s.kept ++ s.added, P x) (hlayer : ∀ child ∈ layer, P child)
    (hstep : ∀ b, ∀ child ∈ layer, P b → Identity.sameAs b child → P (Overlay.overlay b child)) :
    ∀ x ∈ (layer.foldl land s).kept ++ (layer.foldl land s).added, P x := by
  induction layer generalizing s with
  | nil => exact hs
  | cons child layer ih =>
    obtain ⟨hchild, hrest⟩ := List.forall_mem_cons.mp hlayer
    have hland := forall_land hs hchild fun b => hstep b child List.mem_cons_self
    exact ih hland hrest fun b c hc => hstep b c (List.mem_cons_of_mem _ hc)

/-- A property of siblings that survives each landing is had by the result. -/
theorem forall_overlay {P : α → Prop} {base layer : List α} (hbase : ∀ b ∈ base, P b)
    (hlayer : ∀ child ∈ layer, P child)
    (hstep : ∀ b, ∀ child ∈ layer, P b → Identity.sameAs b child → P (Overlay.overlay b child)) :
    ∀ x ∈ overlay base layer, P x := by
  have hstart : ∀ x ∈ base ++ [], P x := by
    rw [List.append_nil]
    exact hbase
  exact forall_foldl_land (s := ⟨base, []⟩) hstart hlayer hstep

variable [LawfulOverlay α]

open LawfulOverlay (sameAs_overlay)

theorem exists_sameAs_land {s : Landing α} {child y : α} :
    (∃ x ∈ (land s child).kept ++ (land s child).added, Identity.sameAs x y) ↔
      (∃ x ∈ s.kept ++ s.added, Identity.sameAs x y) ∨ Identity.sameAs child y := by
  rcases land_cases s child with ⟨before, b, after, hkept, hb, hland⟩ | hland
  · -- by the law, the sibling that took the child adds what the child is the same as
    rw [hland, hkept]
    simp only [List.mem_append, List.mem_cons, or_and_right, exists_or, exists_eq_left,
      sameAs_overlay hb]
    refine iff_of_eq ?_
    ac_rfl
  · rw [hland]
    simp only [List.mem_append, List.mem_singleton, or_and_right, exists_or, exists_eq_left,
      or_assoc]

theorem exists_sameAs_foldl_land {s : Landing α} {layer : List α} {y : α} :
    (∃ x ∈ (layer.foldl land s).kept ++ (layer.foldl land s).added, Identity.sameAs x y) ↔
      (∃ x ∈ s.kept ++ s.added, Identity.sameAs x y) ∨
        ∃ child ∈ layer, Identity.sameAs child y := by
  induction layer generalizing s with
  | nil => simp
  | cons child layer ih =>
    rw [List.foldl_cons, ih, List.exists_mem_cons_iff, ← or_assoc, exists_sameAs_land]

/-- **What the result is the same as**: whatever some sibling of the base or some
child of the layer is the same as. -/
theorem exists_sameAs_overlay {base layer : List α} {y : α} :
    (∃ x ∈ overlay base layer, Identity.sameAs x y) ↔
      (∃ b ∈ base, Identity.sameAs b y) ∨ ∃ child ∈ layer, Identity.sameAs child y := by
  rw [overlay, exists_sameAs_foldl_land, List.append_nil]

/-! ## Steadiness -/

/-- A sibling is steady for a distinct layer: what it takes makes it the same as
nothing that is still to come. -/
theorem steady_of_distinct {layer : List α} (h : Distinct layer) (b : α) : Steady b layer := by
  induction layer generalizing b with
  | nil => trivial
  | cons child layer ih =>
    obtain ⟨hchild, hlayer⟩ := distinct_cons.mp h
    unfold Steady
    split
    next hsame =>
      refine ⟨?_, ih hlayer _⟩
      intro other hother
      -- `other` differs from the child that is taken, so by the law nothing changes
      rw [Bool.eq_iff_iff, sameAs_overlay hsame]
      exact or_iff_left (hchild other hother)
    next => exact ih hlayer b

/-- A sibling of a transitive kind is steady for every layer. -/
theorem steady_of_trans [TransIdentity α] (b : α) (layer : List α) : Steady b layer := by
  induction layer generalizing b with
  | nil => trivial
  | cons child layer ih =>
    unfold Steady
    split
    next hsame =>
      refine ⟨?_, ih _⟩
      intro other _
      -- whatever is the same as the child was the same as the sibling already
      rw [Bool.eq_iff_iff, sameAs_overlay hsame, ← sameAs_congr hsame, or_self]
    next => exact ih b

/-- What a sibling is the same as after it took some children. -/
theorem sameAs_foldl_overlay {b y : α} {taken : List α}
    (h : ∀ child ∈ taken, Identity.sameAs b child) :
    Identity.sameAs (taken.foldl Overlay.overlay b) y ↔
      Identity.sameAs b y ∨ ∃ child ∈ taken, Identity.sameAs child y := by
  induction taken generalizing b with
  | nil => simp
  | cons child taken ih =>
    have hchild := h child List.mem_cons_self
    rw [List.foldl_cons, ih, sameAs_overlay hchild, List.exists_mem_cons_iff, or_assoc]
    intro other hother
    exact (sameAs_overlay hchild).mpr (.inl (h other (List.mem_cons_of_mem _ hother)))

/-! ## When the result is distinct -/

/-- What a sibling becomes differs from what becomes of those after it exactly if
it took no child that is the same as one of them. -/
theorem foldl_overlay_apart_iff {b : α} {rest layer : List α}
    (hb : ∀ b' ∈ rest, ¬ Identity.sameAs b b') (hlayer : Distinct layer) :
    (∀ x ∈ overlay rest (layer.filter fun child => !Identity.sameAs b child),
      ¬ Identity.sameAs ((layer.filter (Identity.sameAs b)).foldl Overlay.overlay b) x) ↔
    ∀ b' ∈ rest, ∀ child ∈ layer, ¬ (Identity.sameAs b child ∧ Identity.sameAs b' child) := by
  have htaken : ∀ child ∈ layer.filter (Identity.sameAs b), Identity.sameAs b child :=
    fun child hchild => (List.mem_filter.mp hchild).2
  constructor
  · intro h b' hb' child hchild hboth
    have htook : child ∈ layer.filter (Identity.sameAs b) :=
      List.mem_filter.mpr ⟨hchild, hboth.1⟩
    -- with `child` taken the sibling is the same as `b'`, hence as what `b'` becomes
    have hsame := (sameAs_foldl_overlay htaken).mpr
      (.inr ⟨child, htook, SymmIdentity.symm hboth.2⟩)
    obtain ⟨x, hx, hxb⟩ := exists_sameAs_overlay.mpr (.inl ⟨b', hb', SymmIdentity.symm hsame⟩)
    exact h x hx (SymmIdentity.symm hxb)
  · intro h x hx hsame
    rcases exists_sameAs_overlay.mp ⟨x, hx, SymmIdentity.symm hsame⟩ with
      ⟨b', hb', hxb⟩ | ⟨child, hchild, hxc⟩
    · rcases (sameAs_foldl_overlay htaken).mp (SymmIdentity.symm hxb) with
        hbb | ⟨child, hchild, hcb⟩
      · exact hb b' hb' hbb
      · obtain ⟨hmem, hbc⟩ := List.mem_filter.mp hchild
        exact h b' hb' child hmem ⟨hbc, SymmIdentity.symm hcb⟩
    · -- a child that went on differs from all that were taken, and from `b`
      obtain ⟨hmem, hbc⟩ := List.mem_filter.mp hchild
      rw [Bool.not_eq_true'] at hbc
      rcases (sameAs_foldl_overlay htaken).mp (SymmIdentity.symm hxc) with
        hbc' | ⟨other, hother, hoc⟩
      · exact absurd hbc' (by simp [hbc])
      · obtain ⟨hother, hbo⟩ := List.mem_filter.mp hother
        have hne : other ≠ child := by
          intro heq
          rw [heq, hbc] at hbo
          exact absurd hbo Bool.false_ne_true
        exact hlayer.not_sameAs hother hmem hne hoc

/-- A distinct layer over a distinct base is distinct exactly if no child of the
layer is the same as two siblings of the base: such a child makes the first of
them the same as the second. -/
theorem distinct_overlay_iff {base layer : List α} (hbase : Distinct base)
    (hlayer : Distinct layer) :
    Distinct (overlay base layer) ↔
      base.Pairwise fun b b' => ∀ child ∈ layer,
        ¬ (Identity.sameAs b child ∧ Identity.sameAs b' child) := by
  induction base generalizing layer with
  | nil => simpa using hlayer
  | cons b rest ih =>
    obtain ⟨hb, hrest⟩ := distinct_cons.mp hbase
    rw [overlay_cons (steady_of_distinct hlayer b), distinct_cons,
      foldl_overlay_apart_iff hb hlayer, ih hrest (hlayer.sublist List.filter_sublist),
      List.pairwise_cons]
    -- the children that were taken are excluded for the rest by the head
    refine and_congr_right fun hhead => List.Pairwise.iff_of_mem fun hb₁ hb₂ => ?_
    constructor
    · intro h child hchild hboth
      by_cases hbc : Identity.sameAs b child
      · exact hhead _ hb₁ child hchild ⟨hbc, hboth.1⟩
      · exact h child (List.mem_filter.mpr ⟨hchild, by simpa using hbc⟩) hboth
    · intro h child hchild
      exact h child (List.mem_filter.mp hchild).1

/-- In a transitive kind nothing is the same as two distinct siblings. -/
theorem Distinct.overlay [TransIdentity α] {base layer : List α} (hbase : Distinct base)
    (hlayer : Distinct layer) : Distinct (overlay base layer) := by
  refine (distinct_overlay_iff hbase hlayer).mpr (hbase.imp ?_)
  intro b b' hbb' child _ h
  obtain ⟨hb, hb'⟩ := h
  exact hbb' (TransIdentity.trans hb (SymmIdentity.symm hb'))

/-! ## What the result holds -/

variable [TransIdentity α]

/-- A sibling of a transitive kind over which a distinct layer is laid, and the
rest: it takes the one child that it is the same as, if there is one. -/
theorem overlay_cons_cases (b : α) (rest : List α) {layer : List α} (hlayer : Distinct layer) :
    ((∀ child ∈ layer, ¬ Identity.sameAs b child) ∧
      overlay (b :: rest) layer = b :: overlay rest layer) ∨
    ∃ child ∈ layer, Identity.sameAs b child ∧
      overlay (b :: rest) layer = Overlay.overlay b child ::
        overlay rest (layer.filter fun other => !Identity.sameAs b other) := by
  rw [overlay_cons (steady_of_trans b layer)]
  rcases filter_sameAs hlayer b with ⟨hnil, hnone⟩ | ⟨child, hchild, hbc, hone⟩
  · have hall : (layer.filter fun other => !Identity.sameAs b other) = layer :=
      List.filter_eq_self.mpr fun other hother => by simpa using hnone other hother
    exact .inl ⟨hnone, by rw [hnil, hall, List.foldl_nil]⟩
  · exact .inr ⟨child, hchild, hbc, by rw [hone, List.foldl_cons, List.foldl_nil]⟩

/-- A member of the result stood in the base, or was added, or is a sibling with
the one child laid over it that is the same. -/
theorem mem_overlay_cases {base layer : List α} (hlayer : Distinct layer) {x : α}
    (hx : x ∈ overlay base layer) :
    x ∈ base ∨ x ∈ layer ∨
      ∃ b ∈ base, ∃ child ∈ layer, Identity.sameAs b child ∧ x = Overlay.overlay b child := by
  induction base generalizing layer with
  | nil =>
    rw [overlay_nil] at hx
    exact .inr (.inl hx)
  | cons b rest ih =>
    rcases overlay_cons_cases b rest hlayer with
      ⟨-, hover⟩ | ⟨child, hchild, hbc, hover⟩
    · rw [hover] at hx
      rcases List.mem_cons.mp hx with rfl | hx
      · exact .inl List.mem_cons_self
      · rcases ih hlayer hx with hrest | hadded | ⟨b', hb', rest⟩
        · exact .inl (List.mem_cons_of_mem _ hrest)
        · exact .inr (.inl hadded)
        · exact .inr (.inr ⟨b', List.mem_cons_of_mem _ hb', rest⟩)
    · rw [hover] at hx
      rcases List.mem_cons.mp hx with rfl | hx
      · exact .inr (.inr ⟨b, List.mem_cons_self, child, hchild, hbc, rfl⟩)
      · rcases ih (hlayer.sublist List.filter_sublist) hx with
          hrest | hadded | ⟨b', hb', other, hother, rest⟩
        · exact .inl (List.mem_cons_of_mem _ hrest)
        · exact .inr (.inl (List.mem_filter.mp hadded).1)
        · exact .inr (.inr ⟨b', List.mem_cons_of_mem _ hb', other, (List.mem_filter.mp hother).1,
            rest⟩)

/-- Each pair of a sibling and a child that are the same is in the result. -/
theorem overlay_mem_overlay {base layer : List α} (hbase : Distinct base)
    (hlayer : Distinct layer) {b child : α} (hb : b ∈ base) (hchild : child ∈ layer)
    (hbc : Identity.sameAs b child) : Overlay.overlay b child ∈ overlay base layer := by
  induction base generalizing layer with
  | nil => exact absurd hb List.not_mem_nil
  | cons b₀ rest ih =>
    obtain ⟨hb₀, hrest⟩ := distinct_cons.mp hbase
    rcases overlay_cons_cases b₀ rest hlayer with
      ⟨hnone, hover⟩ | ⟨taken, htaken, hb₀t, hover⟩
    · rw [hover]
      rcases List.mem_cons.mp hb with rfl | hb
      · exact absurd hbc (hnone child hchild)
      · exact List.mem_cons_of_mem _ (ih hrest hlayer hb hchild)
    · rw [hover]
      rcases List.mem_cons.mp hb with rfl | hb
      · rw [hlayer.eq_of_sameAs hchild htaken hbc hb₀t]
        exact List.mem_cons_self
      · -- the first sibling does not take `child`, for it differs from `b`
        have hleft : ¬ Identity.sameAs b₀ child := fun h =>
          hb₀ b hb (TransIdentity.trans h (SymmIdentity.symm hbc))
        refine List.mem_cons_of_mem _ (ih hrest (hlayer.sublist List.filter_sublist) hb ?_)
        exact List.mem_filter.mpr ⟨hchild, by simpa using hleft⟩

end Siblings

/-! ## Siblings by name -/

namespace Siblings

variable {α : Type} [Named α] [Overlay α] [LawfulOverlay α]

theorem fold_name_overlay {b child : α} (h : Identity.sameAs b child) :
    Name.fold (Named.name (Overlay.overlay b child)) = Name.fold (Named.name b) := by
  rw [← sameAs_iff_name, LawfulOverlay.sameAs_overlay h]
  exact .inl (sameAs_iff_name.mpr rfl)

/-- **Lookups by name.** A name finds in the result what it finds in the layer
laid over what it finds in the base, or what it finds in the one that has it. -/
theorem named?_overlay {base layer : List α} (hlayer : Distinct layer) (name : String) :
    named? (overlay base layer) name =
      Option.merge Overlay.overlay (named? base name) (named? layer name) := by
  induction base generalizing layer with
  | nil =>
    rw [overlay_nil, show named? ([] : List α) name = none from rfl, Option.merge_none_left]
  | cons b rest ih =>
    rw [named?_cons (a := b)]
    by_cases hb : Name.fold (Named.name b) = Name.fold name
    · -- the first sibling is the one that the name finds
      rw [if_pos hb]
      rcases overlay_cons_cases b rest hlayer with
        ⟨hnone, hover⟩ | ⟨child, hchild, hbc, hover⟩
      · have hlookup : named? layer name = none := by
          rw [← Option.not_isSome_iff_eq_none, isSome_named?_iff]
          intro hsome
          obtain ⟨child, hchild, hname⟩ := hsome
          exact hnone child hchild (sameAs_iff_name.mpr (hb.trans hname.symm))
        rw [hover, named?_cons, if_pos hb, hlookup, Option.merge_none_right]
      · have hchildname : Name.fold (Named.name child) = Name.fold name :=
          (sameAs_iff_name.mp hbc).symm.trans hb
        rw [hover, named?_cons, if_pos ((fold_name_overlay hbc).trans hb),
          named?_of_mem hlayer hchild hchildname, Option.merge_some_some]
    · -- it is not, and what it takes does not bear the name
      rw [if_neg hb]
      rcases overlay_cons_cases b rest hlayer with
        ⟨-, hover⟩ | ⟨child, hchild, hbc, hover⟩
      · rw [hover, named?_cons, if_neg hb, ih hlayer]
      · have hleft : ∀ other ∈ layer, Name.fold (Named.name other) = Name.fold name →
            !Identity.sameAs b other := by
          intro other _ hother
          rw [Bool.not_eq_true']
          by_contra hbo
          rw [Bool.not_eq_false, sameAs_iff_name] at hbo
          exact hb (hbo.trans hother)
        rw [hover, named?_cons, fold_name_overlay hbc, if_neg hb,
          ih (hlayer.sublist List.filter_sublist), named?_filter hleft]

end Siblings

end LayeredSchema
