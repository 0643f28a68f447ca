import LayeredSchema.Proofs.Order.Embedding
import LayeredSchema.Proofs.Order.Walk
import LayeredSchema.Proofs.Reference.Rearrangement
import LayeredSchema.Proofs.Validation.Addressing

/-!
# Dependencies do not depend on the order of declaration

The order in which a valid definition declares things decides in which order tables are
discovered, and so which order of creation comes out, but not what depends on what. A
rearrangement of it has a dependency graph exactly if the definition has one, and
corresponding tables have corresponding parents, children and closures
(`dependencyGraph_rearranges`). Either both graphs can be ordered, or the same tables
stand in the way in both.

The graph of the rearrangement is the image of the graph of the definition
(`Digraph.Image`), and all the rest can be said through what nodes need.
-/

namespace LayeredSchema

open Relation (TransGen)

/-! ## Graphs that are the same but for their nodes -/

namespace Digraph

variable {α β : Type} {g : Digraph α} {f : α ≃ β} {g' : Digraph β}

/-- Both graphs list every node once, and nodes need in the one what they need in the
other. -/
structure Image (g : Digraph α) (f : α ≃ β) (g' : Digraph β) : Prop where
  all : ∀ a, a ∈ g.nodes
  all' : ∀ b, b ∈ g'.nodes
  nodup : g.nodes.Nodup
  nodup' : g'.nodes.Nodup
  needs : ∀ a b, g'.Needs (f a) (f b) ↔ g.Needs a b

namespace Image

variable (h : g.Image f g') {a b : α}
include h

theorem symm : g'.Image f.symm g where
  all := h.all'
  all' := h.all
  nodup := h.nodup'
  nodup' := h.nodup
  needs x y := by rw [← h.needs, f.apply_symm_apply, f.apply_symm_apply]

theorem transGen_of (hpath : TransGen g.Needs a b) : TransGen g'.Needs (f a) (f b) :=
  hpath.lift f fun x y hxy => (h.needs x y).mpr hxy

theorem leadsToCycle_of (hcycle : g.LeadsToCycle a) : g'.LeadsToCycle (f a) :=
  hcycle.lift f fun x y hxy => (h.needs x y).mpr hxy

theorem transGen_iff : TransGen g'.Needs (f a) (f b) ↔ TransGen g.Needs a b := by
  refine ⟨fun hpath => ?_, h.transGen_of⟩
  have hback := h.symm.transGen_of hpath
  rwa [f.symm_apply_apply, f.symm_apply_apply] at hback

theorem leadsToCycle_iff : g'.LeadsToCycle (f a) ↔ g.LeadsToCycle a := by
  refine ⟨fun hcycle => ?_, h.leadsToCycle_of⟩
  have hback := h.symm.leadsToCycle_of hcycle
  rwa [f.symm_apply_apply] at hback

variable [DecidableEq α] [DecidableEq β]

theorem children_iff : f b ∈ g'.children (f a) ↔ b ∈ g.children a := by
  rw [mem_children_iff h.all, mem_children_iff h.all', h.needs]

theorem upstream_iff : f b ∈ g'.upstream (f a) ↔ b ∈ g.upstream a := by
  rw [mem_upstream_iff h.all h.nodup, mem_upstream_iff h.all' h.nodup', h.transGen_iff,
    f.injective.ne_iff]

theorem downstream_iff : f b ∈ g'.downstream (f a) ↔ b ∈ g.downstream a := by
  rw [mem_downstream_iff h.all h.nodup, mem_downstream_iff h.all' h.nodup', h.transGen_iff,
    f.injective.ne_iff]

/-- The same nodes stand in the way, if not in the same order. -/
theorem stuck_perm : g'.schedule.stuck.Perm (g.schedule.stuck.map f) := by
  have hstuck : ∀ a, a ∈ g.schedule.stuck ↔ g.LeadsToCycle a := fun a =>
    mem_stuck_iff (closed_of_all h.all) (h.all a)
  have hstuck' : ∀ b, b ∈ g'.schedule.stuck ↔ g'.LeadsToCycle b := fun b =>
    mem_stuck_iff (closed_of_all h.all') (h.all' b)
  have hnodup : g.schedule.stuck.Nodup := (stuck_sublist g g.nodes).nodup h.nodup
  have hnodup' : g'.schedule.stuck.Nodup := (stuck_sublist g' g'.nodes).nodup h.nodup'
  refine (List.perm_ext_iff_of_nodup hnodup' (hnodup.map f.injective)).mpr fun b => ?_
  obtain ⟨a, rfl⟩ := f.surjective b
  rw [hstuck', h.leadsToCycle_iff, List.mem_map_of_injective f.injective, hstuck]

end Image

end Digraph

/-! ## Graphs of rearrangements -/

namespace Definition

variable {d e : Definition} {options : OrderOptions}

/-- The graphs of two definitions say the same about corresponding tables, and either both can
be ordered, or corresponding tables are named as standing in the way. -/
structure SameDependencies (g : Digraph (TableSlot d)) (f : TableSlot d ≃ TableSlot e)
    (g' : Digraph (TableSlot e)) : Prop where
  parents : ∀ t u, f u ∈ g'.parents (f t) ↔ u ∈ g.parents t
  children : ∀ t u, f u ∈ g'.children (f t) ↔ u ∈ g.children t
  upstream : ∀ t u, f u ∈ g'.upstream (f t) ↔ u ∈ g.upstream t
  downstream : ∀ t u, f u ∈ g'.downstream (f t) ↔ u ∈ g.downstream t
  outcome :
    (∃ order order', g.creationOrder = .ok order ∧ g'.creationOrder = .ok order') ∨
    ∃ left left', g.order = .error left ∧ g'.order = .error left' ∧ left'.Perm (left.map f) ∧
      g.creationOrder = .error (.cycle (left.map TableSlot.qualifiedName)) ∧
      g'.creationOrder = .error (.cycle (left'.map TableSlot.qualifiedName))

theorem sameDependencies_of_image {g : Digraph (TableSlot d)} {f : TableSlot d ≃ TableSlot e}
    {g' : Digraph (TableSlot e)} (h : g.Image f g') : SameDependencies g f g' where
  parents := h.needs
  children _ _ := h.children_iff
  upstream _ _ := h.upstream_iff
  downstream _ _ := h.downstream_iff
  outcome := by
    have hnil : g'.schedule.stuck = [] ↔ g.schedule.stuck = [] := by
      rw [← List.map_eq_nil_iff (f := f), ← List.perm_nil, ← List.perm_nil]
      exact h.stuck_perm.congr_left []
    by_cases hstuck : g.schedule.stuck = []
    · have horder : g.order = .ok _ := Digraph.order_eq_ok_iff.mpr ⟨hstuck, rfl⟩
      have horder' : g'.order = .ok _ := Digraph.order_eq_ok_iff.mpr ⟨hnil.mpr hstuck, rfl⟩
      exact .inl ⟨_, _, Digraph.creationOrder_eq_ok_iff.mpr horder,
        Digraph.creationOrder_eq_ok_iff.mpr horder'⟩
    · have hstuck' : g'.schedule.stuck ≠ [] := mt hnil.mp hstuck
      refine .inr ⟨_, _, Digraph.order_eq_error_iff.mpr ⟨hstuck, rfl⟩,
        Digraph.order_eq_error_iff.mpr ⟨hstuck', rfl⟩, h.stuck_perm, ?_, ?_⟩
      · exact Digraph.creationOrder_eq_error_iff.mpr ⟨hstuck, rfl⟩
      · exact Digraph.creationOrder_eq_error_iff.mpr ⟨hstuck', rfl⟩

namespace Places

variable (p : d.Places e) (hd : d.Unambiguous) (he : e.Unambiguous)
include p hd he

theorem exists_dependencyGraph (hr : d.Rearranges e)
    (h : ∃ g, d.dependencyGraph options = .ok g) : ∃ g', e.dependencyGraph options = .ok g' := by
  rw [exists_dependencyGraph_iff] at h ⊢
  intro u r hu
  obtain ⟨t, rfl⟩ := p.table_surjective he hr u
  obtain ⟨s, hs, rfl⟩ := (p.embedding he hd).declares_iff.mp hu
  obtain ⟨v, hv⟩ := h t s hs
  exact ⟨_, (p.embedding he hd).target_reference hv⟩

/-- The tables of a definition and of its rearrangement. -/
noncomputable def tables (hr : d.Rearranges e) : TableSlot d ≃ TableSlot e :=
  .ofBijective p.table ⟨p.table_injective hd, p.table_surjective he hr⟩

theorem image (hr : d.Rearranges e) {g : Digraph (TableSlot d)} {g' : Digraph (TableSlot e)}
    (hg : d.dependencyGraph options = .ok g) (hg' : e.dependencyGraph options = .ok g') :
    g.Image (p.tables hd he hr) g' where
  all := mem_nodes hg
  all' := mem_nodes hg'
  nodup := nodup_nodes hg
  nodup' := nodup_nodes hg'
  needs t u := by
    refine ((p.embedding he hd).needs_iff hg hg' t _).trans ⟨fun hneeds => ?_, fun hneeds => ?_⟩
    · obtain ⟨v, hv, hvu⟩ := hneeds
      exact p.table_injective hd hvu ▸ hv
    · exact ⟨u, hneeds, rfl⟩

end Places

/-- **The order of declaration does not matter.** A valid definition and a rearrangement of it
both have a dependency graph or neither has one, and the two graphs say the same about
corresponding tables. -/
theorem dependencyGraph_rearranges (h : d.validate = .ok ()) (hr : d.Rearranges e) :
    ∃ f : TableSlot d ≃ TableSlot e,
      (∀ t : TableSlot d, t.schema.Rearranges (f t).schema ∧ t.table.Rearranges (f t).table) ∧
      ∀ options : OrderOptions,
        ((∃ g, d.dependencyGraph options = .ok g) ↔
          ∃ g', e.dependencyGraph options = .ok g') ∧
        ∀ g g', d.dependencyGraph options = .ok g → e.dependencyGraph options = .ok g' →
          SameDependencies g f g' := by
  have hd := unambiguous_of_valid h
  have he := hr.unambiguous hd
  obtain ⟨p⟩ := hr.exists_places
  obtain ⟨back⟩ := hr.symm.exists_places
  refine ⟨p.tables hd he hr, fun t => ⟨p.schema_rearranges t, p.table_rearranges t⟩, ?_⟩
  intro options
  refine ⟨⟨?_, ?_⟩, fun g g' hg hg' => ?_⟩
  · exact p.exists_dependencyGraph hd he hr
  · exact back.exists_dependencyGraph he hd hr.symm
  · exact sameDependencies_of_image (p.image hd he hr hg hg')

/-- Boats and crews that need each other, and trips that need a boat. -/
def ferry : Definition where
  schemas :=
    [{ name := "public"
       tables :=
        [{ name := "boats"
           columns := [.typed "id" "int", (Column.proxy "crew").references "staff" "crews" "id"] },
         { name := "trips", columns := [(Column.proxy "boat").references "" "BOATS" "id"] }] },
     { name := "staff"
       tables :=
        [{ name := "crews"
           columns :=
            [.typed "id" "int", (Column.proxy "boat").references "public" "boats" "id"] }] }]

/-- The same with the schemas, the tables of the first of them and the columns of its first
table the other way round. -/
def ferryTurned : Definition where
  schemas :=
    [{ name := "staff"
       tables :=
        [{ name := "crews"
           columns :=
            [.typed "id" "int", (Column.proxy "boat").references "public" "boats" "id"] }] },
     { name := "public"
       tables :=
        [{ name := "trips", columns := [(Column.proxy "boat").references "" "BOATS" "id"] },
         { name := "boats"
           columns :=
            [(Column.proxy "crew").references "staff" "crews" "id", .typed "id" "int"] }] }]

theorem ferry_rearranges : ferry.Rearranges ferryTurned where
  schemas := by
    refine ⟨_, .cons ⟨⟨_, .cons ?_ (.cons (.refl _) .nil), .swap _ _ _⟩, rfl⟩
      (.cons (.refl _) .nil), .swap _ _ _⟩
    exact ⟨.swap _ _ _, .refl _, .refl _, rfl⟩
  rest := rfl

theorem dependencyGraph_rearranges_ferry :
    ferry.validate = .ok () ∧ ferry.Rearranges ferryTurned ∧
      ferry.creationOrder {} = .error (.cycle ["public.boats", "public.trips", "staff.crews"]) ∧
      ferryTurned.creationOrder {} =
        .error (.cycle ["staff.crews", "public.trips", "public.boats"]) ∧
      ∃ f : TableSlot ferry ≃ TableSlot ferryTurned,
        (∀ t : TableSlot ferry,
          t.schema.Rearranges (f t).schema ∧ t.table.Rearranges (f t).table) ∧
        ∃ g g', ferry.dependencyGraph {} = .ok g ∧ ferryTurned.dependencyGraph {} = .ok g' ∧
          SameDependencies g f g' := by
  have hvalid : ferry.validate = .ok () := by decide +kernel
  obtain ⟨f, hf, hsame⟩ := dependencyGraph_rearranges hvalid ferry_rearranges
  have hbuilt : (ferry.dependencyGraph {}).toOption.isSome = true := by decide +kernel
  obtain ⟨g, hg⟩ := Option.isSome_iff_exists.mp hbuilt
  have hgraph := eq_ok_of_toOption hg
  obtain ⟨hiff, hgraphs⟩ := hsame {}
  obtain ⟨g', hgraph'⟩ := hiff.mp ⟨g, hgraph⟩
  refine ⟨hvalid, ferry_rearranges, by decide +kernel, by decide +kernel, f, hf, ?_⟩
  exact ⟨g, g', hgraph, hgraph', hgraphs g g' hgraph hgraph'⟩

end Definition

end LayeredSchema
