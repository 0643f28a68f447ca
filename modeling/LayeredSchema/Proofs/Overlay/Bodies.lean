import LayeredSchema.Proofs.Overlay.Frame

/-!
# No body is lost

Routines are overlaid body by body, so that a layer may write a routine anew for
one dialect and leave it alone for all others. What a routine is the same as
grows while it takes routines of the layer, and several of them may land on one
routine of the base, each with the signature and the scalars of the last. This
file says that no body is lost on the way (`Schema.overlay_keeps_bodies`).

The reason is that the routines which land on one routine have one signature, and
differ; so they have no dialect in common, and their bodies land like one layer
(`Routine.bodies_foldl_overlay`). In one layer of things that are replaced as a
whole, every child is there in the end (`Siblings.mem_overlay_of_replacing`), and
every sibling stands where it stood or has given its place to a child that is the
same (`Siblings.getElem?_overlay_of_replacing`).
-/

namespace LayeredSchema

/-! ## Siblings that are replaced as a whole -/

namespace Siblings

section Replacing

variable {α : Type} [Identity α] [Overlay α] [LawfulOverlay α] [TransIdentity α]
  {base layer : List α}

/-- No child of a distinct layer is written over. -/
theorem mem_overlay_of_replacing (hreplace : ∀ base layer : α, Overlay.overlay base layer = layer)
    (h : Distinct layer) {child : α} (hchild : child ∈ layer) : child ∈ overlay base layer := by
  cases hland : landing? base child with
  | none =>
    have hadded : child ∈ landingNowhere base layer :=
      List.mem_filter.mpr ⟨hchild, decide_eq_true hland⟩
    rw [overlay_eq (alwaysSteady_of_distinct h)]
    exact List.mem_append_right _ hadded
  | some i =>
    obtain ⟨b, hb, -, -⟩ := landing?_eq_some_iff.mp hland
    have htaken : child ∈ landingAt base i layer :=
      List.mem_filter.mpr ⟨hchild, decide_eq_true hland⟩
    have hresult := getElem?_overlay (alwaysSteady_of_distinct h) hb
    -- nothing lands on the sibling besides `child`
    rcases (h.sublist landingAt_sublist).eq_nil_or_singleton
        (fun _ hother => sameAs_of_mem_landingAt hb hother) with hnil | ⟨only, hone⟩
    · rw [hnil] at htaken
      exact absurd htaken List.not_mem_nil
    · rw [hone] at htaken
      obtain rfl := List.mem_singleton.mp htaken
      rw [hone, List.foldl_cons, List.foldl_nil, hreplace] at hresult
      exact List.mem_of_getElem? hresult

/-- A sibling stands where it stood, or a child of the layer that is the same does. -/
theorem getElem?_overlay_of_replacing
    (hreplace : ∀ base layer : α, Overlay.overlay base layer = layer) (h : Distinct layer)
    {i : Nat} {b : α} (hb : base[i]? = some b) :
    ∃ r, (overlay base layer)[i]? = some r ∧ (r = b ∨ r ∈ layer ∧ Identity.sameAs b r) := by
  refine ⟨_, getElem?_overlay (alwaysSteady_of_distinct h) hb, ?_⟩
  rcases (h.sublist landingAt_sublist).eq_nil_or_singleton
      (fun _ hother => sameAs_of_mem_landingAt hb hother) with hnil | ⟨child, hone⟩
  · rw [hnil, List.foldl_nil]
    exact .inl rfl
  · have htaken : child ∈ landingAt base i layer := hone ▸ List.mem_singleton_self child
    rw [hone, List.foldl_cons, List.foldl_nil, hreplace]
    exact .inr ⟨landingAt_sublist.mem htaken, sameAs_of_mem_landingAt hb htaken⟩

end Replacing

end Siblings

open Siblings (Distinct landing? landingAt landingNowhere landingAt_sublist
  sameAs_of_mem_landingAt alwaysSteady_of_distinct)

/-! ## Routines -/

namespace Routine

/-- A body of a routine and what stands in its place once a layer was laid over the routine:
the body itself, or one for the same dialect from a routine of the layer with the signature. -/
def Stands (base : Routine) (layer : List Routine) (body kept : Body) : Prop :=
  kept = body ∨ ∃ r ∈ layer, r.sameSignature base ∧ kept ∈ r.bodies ∧
    ∃ dialect, body.dialect = some dialect ∧ kept.dialect = some dialect

variable {base : Routine} {landed : List Routine}

/-- The bodies of all routines that land on one are there in the end. -/
theorem mem_bodies_foldl_overlay (hdistinct : Distinct landed)
    (hbodies : ∀ r ∈ landed, Distinct r.bodies) (hsame : ∀ r ∈ landed, Identity.sameAs base r)
    {r : Routine} (hr : r ∈ landed) {body : Body} (hbody : body ∈ r.bodies) :
    body ∈ (landed.foldl Overlay.overlay base).bodies := by
  rw [bodies_foldl_overlay hdistinct hsame]
  exact Siblings.mem_overlay_of_replacing (fun _ _ => rfl)
    (distinct_flatMap_bodies hdistinct hbodies hsame) (List.mem_flatMap.mpr ⟨r, hr, hbody⟩)

/-- What stands where a body of the base stood. -/
theorem stands_foldl_overlay (hdistinct : Distinct landed)
    (hbodies : ∀ r ∈ landed, Distinct r.bodies) (hsame : ∀ r ∈ landed, Identity.sameAs base r)
    {j : Nat} {body : Body} (hbody : base.bodies[j]? = some body) :
    ∃ kept, (landed.foldl Overlay.overlay base).bodies[j]? = some kept ∧
      Stands base landed body kept := by
  obtain ⟨kept, hkept, hcases⟩ := Siblings.getElem?_overlay_of_replacing (fun _ _ => rfl)
    (distinct_flatMap_bodies hdistinct hbodies hsame) hbody
  rw [← bodies_foldl_overlay hdistinct hsame] at hkept
  refine ⟨kept, hkept, ?_⟩
  rcases hcases with rfl | ⟨hmem, hbk⟩
  · exact .inl rfl
  · obtain ⟨r, hr, hkeptr⟩ := List.mem_flatMap.mp hmem
    obtain ⟨hsig, -⟩ := sameAs_routine_iff.mp (hsame r hr)
    exact .inr ⟨r, hr, sameSignature_iff.mpr hsig.symm, hkeptr, sameAs_iff_key.mp hbk⟩

theorem Stands.of_subset {layer : List Routine} (hsub : ∀ r ∈ landed, r ∈ layer)
    {body kept : Body} (h : Stands base landed body kept) : Stands base layer body kept := by
  rcases h with rfl | ⟨r, hr, hrest⟩
  · exact .inl rfl
  · exact .inr ⟨r, hsub r hr, hrest⟩

end Routine

/-! ## Schemas -/

namespace Schema

variable {base layer : Schema}

/-- A routine of the base, with what landed on it. -/
theorem getElem?_routines_overlay (h : Distinct layer.routines) {i : Nat} {b : Routine}
    (hb : base.routines[i]? = some b) :
    (Overlay.overlay base layer).routines[i]? =
      some ((landingAt base.routines i layer.routines).foldl Overlay.overlay b) :=
  Siblings.getElem?_overlay (alwaysSteady_of_distinct h) hb

/-- The routine at a position of the base keeps its signature. -/
theorem sameSignature_landed (layer : Schema) {i : Nat} {b : Routine}
    (hb : base.routines[i]? = some b) :
    ((landingAt base.routines i layer.routines).foldl Overlay.overlay b).sameSignature b := by
  rw [Routine.sameSignature_iff]
  exact Routine.signatureKey_foldl_overlay fun r hr =>
    (Routine.sameAs_routine_iff.mp (sameAs_of_mem_landingAt hb hr)).1

/-- **No body is lost.** If no two routines of the layer are the same and none of them declares
a dialect twice, then every body of the layer is in the result as it is, in a routine with its
signature; and a routine of the base keeps its place, its signature and its bodies, but for
those in whose place stands the body for the same dialect of a routine of the layer. -/
theorem overlay_keeps_bodies (base : Schema) {layer : Schema}
    (hroutines : Distinct layer.routines) (hbodies : ∀ r ∈ layer.routines, Distinct r.bodies) :
    (∀ r ∈ layer.routines, ∀ body ∈ r.bodies,
      ∃ result ∈ (Overlay.overlay base layer).routines,
        result.sameSignature r ∧ body ∈ result.bodies) ∧
    ∀ (i : Nat) (b : Routine), base.routines[i]? = some b →
      ∃ result, (Overlay.overlay base layer).routines[i]? = some result ∧
        result.sameSignature b ∧
        ∀ (j : Nat) (body : Routine.Body), b.bodies[j]? = some body →
          ∃ kept, result.bodies[j]? = some kept ∧ b.Stands layer.routines body kept := by
  have hlanded : ∀ i, Distinct (landingAt base.routines i layer.routines) := fun i =>
    hroutines.sublist landingAt_sublist
  have hlandedBodies : ∀ i, ∀ r ∈ landingAt base.routines i layer.routines, Distinct r.bodies :=
    fun i r hr => hbodies r (landingAt_sublist.mem hr)
  constructor
  · intro r hr body hbody
    cases hland : landing? base.routines r with
    | none =>
      -- the routine is added as it is
      have hadded : r ∈ landingNowhere base.routines layer.routines :=
        List.mem_filter.mpr ⟨hr, decide_eq_true hland⟩
      refine ⟨r, ?_, Routine.sameSignature_iff.mpr rfl, hbody⟩
      show r ∈ Siblings.overlay base.routines layer.routines
      rw [Siblings.overlay_eq (alwaysSteady_of_distinct hroutines)]
      exact List.mem_append_right _ hadded
    | some i =>
      obtain ⟨b, hb, hsame, -⟩ := Siblings.landing?_eq_some_iff.mp hland
      have htaken : r ∈ landingAt base.routines i layer.routines :=
        List.mem_filter.mpr ⟨hr, decide_eq_true hland⟩
      obtain ⟨hsig, -⟩ := Routine.sameAs_routine_iff.mp hsame
      refine ⟨_, List.mem_of_getElem? (getElem?_routines_overlay hroutines hb), ?_, ?_⟩
      · have hkept := Routine.sameSignature_iff.mp (sameSignature_landed layer hb)
        exact Routine.sameSignature_iff.mpr (hkept.trans hsig)
      · exact Routine.mem_bodies_foldl_overlay (hlanded i) (hlandedBodies i)
          (fun _ hother => sameAs_of_mem_landingAt hb hother) htaken hbody
  · intro i b hb
    refine ⟨_, getElem?_routines_overlay hroutines hb, sameSignature_landed layer hb, ?_⟩
    intro j body hbody
    obtain ⟨kept, hkept, hstands⟩ := Routine.stands_foldl_overlay (hlanded i) (hlandedBodies i)
      (fun _ hother => sameAs_of_mem_landingAt hb hother) hbody
    exact ⟨kept, hkept, hstands.of_subset fun r hr => landingAt_sublist.mem hr⟩

/-- A routine for two dialects and one without, and the same signature once more for a third. -/
def ledger : Schema where
  name := "app"
  routines :=
    [{ name := "close", parameters := [{ name := "day", type := "date" }]
       bodies :=
        [{ dialect := some .pgsql8, text := "a" }, { dialect := some .mysql5, text := "b" },
         { text := "c" }] },
     { name := "close", parameters := [{ name := "day", type := "date" }]
       bodies := [{ dialect := some .mssql10, text := "d" }] }]

/-- Two routines that differ and land on the first routine: the second of them writes over it
for another dialect, and for one that the next routine of the base has. -/
def correction : Schema where
  name := "APP"
  routines :=
    [{ name := "CLOSE", owner := "alice", parameters := [{ name := "Day", type := "DATE" }]
       bodies := [{ dialect := some .pgsql8, text := "e" }, { text := "f" }] },
     { name := "Close", owner := "bob", parameters := [{ name := "day", type := "date" }]
       bodies := [{ dialect := some .mysql5, text := "g" },
         { dialect := some .mssql10, text := "h" }] }]

theorem overlay_keeps_bodies_correction :
    Distinct correction.routines ∧ (∀ r ∈ correction.routines, Distinct r.bodies) ∧
    (∃ result ∈ (Overlay.overlay ledger correction).routines,
      result.sameSignature { name := "close", parameters := [{ name := "day", type := "date" }] } ∧
        { dialect := some .pgsql8, text := "e" } ∈ result.bodies) ∧
    ∃ result, (Overlay.overlay ledger correction).routines[0]? = some result ∧
      result.owner = "bob" ∧ ∃ kept, result.bodies[2]? = some kept ∧ kept.text = "c" := by
  have hroutines : Distinct correction.routines := by decide +kernel
  have hbodies : ∀ r ∈ correction.routines, Distinct r.bodies := by decide +kernel
  obtain ⟨hlayer, hbase⟩ := overlay_keeps_bodies ledger hroutines hbodies
  refine ⟨hroutines, hbodies, ?_, ?_⟩
  · obtain ⟨result, hresult, hsig, hbody⟩ := hlayer _ List.mem_cons_self _ List.mem_cons_self
    exact ⟨result, hresult, by
      rw [Routine.sameSignature_iff] at hsig ⊢
      exact hsig.trans (by decide +kernel), hbody⟩
  · obtain ⟨result, hresult, -, hbodies⟩ := hbase 0 _ rfl
    obtain ⟨kept, hkept, hstands⟩ := hbodies 2 _ rfl
    have howner : ((Overlay.overlay ledger correction).routines[0]?).map Routine.owner =
        some "bob" := by decide +kernel
    rw [hresult, Option.map_some, Option.some.injEq] at howner
    refine ⟨result, hresult, howner, kept, hkept, ?_⟩
    -- a body without a dialect is not replaced
    rcases hstands with rfl | ⟨_, _, _, _, dialect, hdialect, _⟩
    · rfl
    · exact absurd hdialect (by simp)

end Schema

end LayeredSchema
