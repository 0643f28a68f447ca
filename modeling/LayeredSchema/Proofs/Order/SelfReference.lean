import LayeredSchema.Proofs.Order.Creation
import LayeredSchema.Proofs.Order.Recording

/-!
# Tables that refer to themselves

Ordering may pass over references from a table to itself or take them for cycles. This file
compares the two. The graph in which they are passed over is the other one without its loops
(`dependencyGraph_lenient`), so that all differences are differences of any graph from itself
without loops: it has an order exactly if it has no loops and has an order without them, and
then the same one (`order_eq_ok_iff_withoutLoops`), and what cannot be ordered without the
loops cannot be ordered with them (`stuck_withoutLoops_subset`).
-/

namespace LayeredSchema

/-! ## Graphs without their loops -/

namespace Digraph

variable {α : Type} [DecidableEq α] {g : Digraph α} {a b : α}

/-- The graph without the edges from nodes to themselves. -/
def withoutLoops (g : Digraph α) : Digraph α :=
  { g with parents := fun a => (g.parents a).filter fun b => b != a }

theorem needs_withoutLoops_iff : g.withoutLoops.Needs a b ↔ g.Needs a b ∧ b ≠ a := by
  simp [Needs, withoutLoops]

theorem withoutLoops_eq_self (h : ∀ a, ¬ g.Needs a a) : g.withoutLoops = g := by
  have hparents : g.withoutLoops.parents = g.parents := by
    funext a
    refine List.filter_eq_self.mpr fun b hb => bne_iff_ne.mpr ?_
    rintro rfl
    exact h b hb
  exact congrArg (Digraph.mk g.nodes) hparents

/-- **Orders without loops.** A graph has no loops if it has an order, and without loops it is
the same graph. -/
theorem order_eq_ok_iff_withoutLoops (hall : ∀ a, a ∈ g.nodes) {order : List α} :
    g.order = .ok order ↔ g.withoutLoops.order = .ok order ∧ ∀ a, ¬ g.Needs a a := by
  constructor
  · intro h
    obtain ⟨hstuck, -⟩ := order_eq_ok_iff.mp h
    have hloops : ∀ a, ¬ g.Needs a a := fun a ha =>
      (stuck_ne_nil_iff hall).mpr ⟨a, .single ha⟩ hstuck
    exact ⟨by rwa [withoutLoops_eq_self hloops], hloops⟩
  · intro h
    obtain ⟨horder, hloops⟩ := h
    rwa [withoutLoops_eq_self hloops] at horder

/-- What is left without the loops is left with them. -/
theorem stuck_withoutLoops_subset (hall : ∀ a, a ∈ g.nodes) :
    g.withoutLoops.schedule.stuck ⊆ g.schedule.stuck := by
  intro a ha
  have hclosed : g.withoutLoops.Closed := closed_of_all hall
  have hcycle : g.withoutLoops.LeadsToCycle a := (mem_stuck_iff hclosed (hall a)).mp ha
  refine (mem_stuck_iff (closed_of_all hall) (hall a)).mpr ?_
  exact hcycle.lift id fun b c hbc => (needs_withoutLoops_iff.mp hbc).1

end Digraph

/-! ## The graph of a definition -/

/-- References from a table to itself are cycles. -/
def OrderOptions.strict : OrderOptions := { allowSelfReferences := false }

/-- References from a table to itself are passed over. -/
def OrderOptions.lenient : OrderOptions := { allowSelfReferences := true }

namespace Definition

variable {d : Definition} {options : OrderOptions}

theorem creationOrder_eq_failed_iff {f : ResolveFailure} :
    d.creationOrder options = .error (.failed f) ↔ d.dependencyGraph options = .error f := by
  unfold creationOrder
  rw [bind_eq_error_iff, mapError_eq_error_iff]
  simp [Digraph.creationOrder_eq_error_iff]

theorem creationOrder_eq_cycle_iff {names : List String} :
    d.creationOrder options = .error (.cycle names) ↔
      ∃ g, d.dependencyGraph options = .ok g ∧ g.schedule.stuck ≠ [] ∧
        names = g.schedule.stuck.map TableSlot.qualifiedName := by
  unfold creationOrder
  rw [bind_eq_error_iff, mapError_eq_error_iff]
  simp [Digraph.creationOrder_eq_error_iff, mapError_eq_ok_iff]

/-- **What the option does.** To pass over references from tables to themselves is to leave
these edges out, and nothing else. -/
theorem dependencyGraph_lenient :
    d.dependencyGraph .lenient = (d.dependencyGraph .strict).map Digraph.withoutLoops := by
  cases hstrict : d.dependencyGraph .strict with
  | error f =>
    -- which reference fails first has nothing to do with the options
    exact dependencyGraph_eq_error_iff.mpr (dependencyGraph_eq_error_iff.mp hstrict)
  | ok g =>
    obtain ⟨g', hlenient⟩ : ∃ g', d.dependencyGraph .lenient = .ok g' :=
      exists_dependencyGraph_iff.mpr (exists_dependencyGraph_iff.mp ⟨g, hstrict⟩)
    obtain ⟨hnodes, hdeps⟩ := dependencyGraph_spec hstrict
    obtain ⟨hnodes', hdeps'⟩ := dependencyGraph_spec hlenient
    have hparents : ∀ t, g'.parents t = (g.parents t).filter fun u => u != t := by
      intro t
      obtain ⟨targets, htargets, hg⟩ := TableSlot.dependencies_eq_ok_iff.mp (hdeps t)
      obtain ⟨targets', htargets', hg'⟩ := TableSlot.dependencies_eq_ok_iff.mp (hdeps' t)
      obtain rfl : targets = targets' := Except.ok.inj (htargets.symm.trans htargets')
      rw [hg, hg', List.filter_filter]
      refine List.filter_congr fun u _ => ?_
      simp [OrderOptions.strict, OrderOptions.lenient, bne, Bool.and_comm]
    have hgraph : g' = g.withoutLoops := by
      cases g'
      rw [Digraph.withoutLoops, Digraph.mk.injEq]
      exact ⟨hnodes'.trans hnodes.symm, funext hparents⟩
    rw [hlenient, hgraph]
    rfl

/-- A table needs itself exactly if some reference leads back to it, where that is not passed
over. -/
theorem needs_self_iff {g : Digraph (TableSlot d)} (h : d.dependencyGraph .strict = .ok g)
    {t : TableSlot d} : g.Needs t t ↔ ∃ r, t.Declares r ∧ r.target = .ok t := by
  rw [needs_iff h]
  simp [OrderOptions.strict]

theorem creationOrder_strict_eq_ok_iff {order : List (TableSlot d)} :
    d.creationOrder .strict = .ok order ↔ d.creationOrder .lenient = .ok order ∧
      ∀ (t : TableSlot d) (r : Reference d), t.Declares r → r.target ≠ .ok t := by
  rw [creationOrder_eq_ok_iff, creationOrder_eq_ok_iff, dependencyGraph_lenient]
  cases hstrict : d.dependencyGraph .strict with
  | error f => simp [Except.map]
  | ok g =>
    have hself : (∀ t, ¬ g.Needs t t) ↔
        ∀ (t : TableSlot d) (r : Reference d), t.Declares r → r.target ≠ .ok t := by
      simp only [needs_self_iff hstrict, not_exists, not_and]
    rw [← hself]
    simp [Except.map, Digraph.order_eq_ok_iff_withoutLoops (mem_nodes hstrict)]

/-- **Self references.** Whether they are passed over or not, the same references fail. With
none of them there is the same order both ways, and with some there is one only where they
are passed over. Tables that stand in the way even then stand in the way in any case. -/
theorem creationOrder_strict_lenient (d : Definition) :
    (∀ f, d.creationOrder .strict = .error (.failed f) ↔
      d.creationOrder .lenient = .error (.failed f)) ∧
    ((∃ order, d.creationOrder .strict = .ok order) ↔
      (∃ order, d.creationOrder .lenient = .ok order) ∧
        ¬ ∃ (t : TableSlot d) (r : Reference d), t.Declares r ∧ r.target = .ok t) ∧
    (∀ order order', d.creationOrder .strict = .ok order →
      d.creationOrder .lenient = .ok order' → order = order') ∧
    ∀ names names', d.creationOrder .strict = .error (.cycle names) →
      d.creationOrder .lenient = .error (.cycle names') →
      ∃ left left' : List (TableSlot d), left.Sublist d.tableSlots ∧ left'.Sublist d.tableSlots ∧
        names = left.map TableSlot.qualifiedName ∧ names' = left'.map TableSlot.qualifiedName ∧
        left' ⊆ left := by
  refine ⟨fun f => ?_, ?_, ?_, ?_⟩
  · rw [creationOrder_eq_failed_iff, creationOrder_eq_failed_iff, dependencyGraph_eq_error_iff,
      dependencyGraph_eq_error_iff]
  · simp only [creationOrder_strict_eq_ok_iff, exists_and_right, not_exists, not_and, ne_eq]
  · intro order order' hstrict hlenient
    obtain ⟨hsame, -⟩ := creationOrder_strict_eq_ok_iff.mp hstrict
    exact Except.ok.inj (hsame.symm.trans hlenient)
  · intro names names' hstrict hlenient
    obtain ⟨g, hg, -, rfl⟩ := creationOrder_eq_cycle_iff.mp hstrict
    obtain ⟨g', hg', -, rfl⟩ := creationOrder_eq_cycle_iff.mp hlenient
    rw [dependencyGraph_lenient, hg] at hg'
    obtain rfl : g.withoutLoops = g' := Except.ok.inj hg'
    have hnodes := (dependencyGraph_spec hg).1
    refine ⟨_, _, hnodes ▸ Digraph.stuck_sublist g g.nodes,
      hnodes ▸ Digraph.stuck_sublist g.withoutLoops g.nodes, rfl, rfl, ?_⟩
    exact Digraph.stuck_withoutLoops_subset (mem_nodes hg)

theorem creationOrder_strict_lenient_knot_bookshop :
    (knot.creationOrder .strict =
        .error (.cycle ["public.late", "public.a", "public.b", "public.self"]) ∧
      knot.creationOrder .lenient = .error (.cycle ["public.late", "public.a", "public.b"]) ∧
      ∃ left left' : List (TableSlot knot), left.Sublist knot.tableSlots ∧
        left'.Sublist knot.tableSlots ∧
        ["public.late", "public.a", "public.b", "public.self"] =
          left.map TableSlot.qualifiedName ∧
        ["public.late", "public.a", "public.b"] = left'.map TableSlot.qualifiedName ∧
        left' ⊆ left) ∧
    (∃ order, bookshop.creationOrder .lenient = .ok order) ∧
    ∃ (t : TableSlot bookshop) (r : Reference bookshop), t.Declares r ∧ r.target = .ok t := by
  have hstrict : knot.creationOrder .strict =
      .error (.cycle ["public.late", "public.a", "public.b", "public.self"]) := by
    decide +kernel
  have hlenient : knot.creationOrder .lenient =
      .error (.cycle ["public.late", "public.a", "public.b"]) := by
    decide +kernel
  refine ⟨⟨hstrict, hlenient, (creationOrder_strict_lenient knot).2.2.2 _ _ hstrict hlenient⟩, ?_⟩
  have heval : (bookshop.creationOrder .lenient).toOption.isSome = true := by decide +kernel
  obtain ⟨order, horder⟩ := Option.isSome_iff_exists.mp heval
  have hordered : ∃ order, bookshop.creationOrder .lenient = .ok order :=
    ⟨order, eq_ok_of_toOption horder⟩
  -- the orders that are their own parents are what strict ordering refuses
  have hrefused : (bookshop.creationOrder .strict).toOption = none := by decide +kernel
  refine ⟨hordered, ?_⟩
  by_contra hnone
  obtain ⟨order', horder'⟩ :=
    (creationOrder_strict_lenient bookshop).2.1.mpr ⟨hordered, hnone⟩
  rw [horder'] at hrefused
  cases hrefused

end Definition

end LayeredSchema
