import LayeredSchema.Proofs.Order.Embedding
import LayeredSchema.Proofs.Reference.Extension
import Mathlib.Data.List.FinRange

/-!
# The order of a larger definition

Tables that are added to a definition may come between the tables there were, but
they do not change the order of those. The reason is in the graph: the old tables
need what they needed before and nothing new (`Embedding.needs_iff`), so that they are
ready in the same round unless they are held up by tables that are not theirs to
wait for.

`Digraph.filter_rounds` says it of any graph that lies in another one
(`Digraph.Within`): peeling the larger one takes, round after round, what peeling
the smaller one takes, and rounds that take nothing of the smaller one do no harm.
-/

namespace LayeredSchema

/-! ## Graphs in graphs -/

namespace Digraph

variable {α β : Type} {f : α → β} {p : β → Bool} {all : List β} {some : List α}

/-- The image of a graph lies in another one: its nodes need there what they need here. -/
structure Within (small : Digraph α) (f : α → β) (big : Digraph β) : Prop where
  injective : Function.Injective f
  needs : ∀ a b, big.Needs (f a) b ↔ ∃ c, small.Needs a c ∧ f c = b

/-- What is left of a list when a condition is asked of it and when it is asked of the
elements that are chosen. -/
theorem filter_filter_of_map {q : β → Bool} {q' : α → Bool} (h : all.filter p = some.map f)
    (hq : ∀ a, q (f a) = q' a) :
    (all.filter q).filter p = (some.filter q').map f := by
  rw [List.filter_filter, List.filter_congr fun b _ => Bool.and_comm (p b) (q b),
    ← List.filter_filter, h, List.filter_map]
  congr 1
  exact List.filter_congr fun a _ => hq a

theorem mem_iff_of_map (hf : Function.Injective f) (hp : ∀ a, p (f a))
    (h : all.filter p = some.map f) (a : α) : f a ∈ all ↔ a ∈ some := by
  have hchosen : f a ∈ all.filter p ↔ f a ∈ all := by
    rw [List.mem_filter]
    exact and_iff_left (hp a)
  rw [← hchosen, h, List.mem_map_of_injective hf]

variable [DecidableEq α] [DecidableEq β]

/-- A round and what comes after it, also if the round takes nothing. -/
theorem flatten_rounds (g : Digraph α) (remaining : List α) :
    (g.peel remaining).rounds.flatten =
      g.ready remaining ++ (g.peel (g.unready remaining)).rounds.flatten := by
  by_cases h : g.ready remaining = []
  · have hall : g.unready remaining = remaining := by
      rw [unready, h]
      exact List.filter_eq_self.mpr fun a _ => by simp
    rw [hall, h, List.nil_append]
  · rw [rounds_of_ready h, List.flatten_cons]

section Within

variable {small : Digraph α} {big : Digraph β}

/-- A round of the larger graph takes of the smaller one what its own round takes. -/
theorem Within.filter_ready (hw : small.Within f big) (hp : ∀ a, p (f a))
    (h : all.filter p = some.map f) : (big.ready all).filter p = (small.ready some).map f := by
  unfold ready
  refine filter_filter_of_map h fun a => ?_
  rw [Bool.eq_iff_iff, List.all_eq_true, List.all_eq_true]
  simp only [decide_eq_true_eq]
  constructor
  · intro hall c hc
    rw [← mem_iff_of_map hw.injective hp h]
    exact hall (f c) ((hw.needs a (f c)).mpr ⟨c, hc, rfl⟩)
  · intro hsome b hb
    obtain ⟨c, hc, rfl⟩ := (hw.needs a b).mp hb
    rw [mem_iff_of_map hw.injective hp h]
    exact hsome c hc

theorem Within.filter_unready (hw : small.Within f big) (hp : ∀ a, p (f a))
    (h : all.filter p = some.map f) :
    (big.unready all).filter p = (small.unready some).map f := by
  unfold unready
  refine filter_filter_of_map h fun a => ?_
  rw [Bool.eq_iff_iff, decide_eq_true_iff, decide_eq_true_iff,
    mem_iff_of_map hw.injective hp (hw.filter_ready hp h)]

/-- **Rounds of a graph within a graph.** Of the smaller graph, all rounds of the larger one
take what its own rounds take, in the same order. -/
theorem Within.filter_rounds (hw : small.Within f big) (hp : ∀ a, p (f a))
    (h : all.filter p = some.map f) :
    (big.peel all).rounds.flatten.filter p = (small.peel some).rounds.flatten.map f := by
  induction all using peel.induct big generalizing some with
  | case1 all hnone =>
    -- no node is ready, and so none of the smaller graph
    have hready := hw.filter_ready hp h
    rw [hnone, List.filter_nil] at hready
    rw [peel_of_ready_nil hnone, peel_of_ready_nil (List.map_eq_nil_iff.mp hready.symm)]
    rfl
  | case2 all hsome ih =>
    rw [flatten_rounds big, flatten_rounds small, List.filter_append, List.map_append,
      hw.filter_ready hp h, ih (hw.filter_unready hp h)]

end Within

end Digraph

/-! ## The order of slots -/

/-- One slot stands before another one. -/
def TableSlot.Before {d : Definition} (t u : TableSlot d) : Prop :=
  t.schemaAt < u.schemaAt ∨ t.schemaAt = u.schemaAt ∧ t.tableAt.val < u.tableAt.val

theorem TableSlot.Before.asymm {d : Definition} {t u : TableSlot d} (h : t.Before u) :
    ¬ u.Before t := by
  intro h'
  unfold Before at h h'
  omega

theorem Definition.pairwise_tableSlots (d : Definition) :
    d.tableSlots.Pairwise TableSlot.Before := by
  unfold tableSlots
  rw [List.pairwise_flatMap]
  constructor
  · intro s _
    rw [tableSlotsIn, List.pairwise_map]
    exact (List.pairwise_lt_finRange _).imp fun hlt => .inr ⟨rfl, hlt⟩
  · refine (List.pairwise_lt_finRange _).imp ?_
    intro s s' hlt t ht u hu
    obtain ⟨i, -, rfl⟩ := List.mem_map.mp ht
    obtain ⟨j, -, rfl⟩ := List.mem_map.mp hu
    exact .inl hlt

namespace Definition.Extends

variable {d more : Definition} (h : d.Extends more)

theorem before_lift {t u : TableSlot d} (htu : t.Before u) : (h.lift t).Before (h.lift u) := by
  rcases htu with hlt | ⟨heq, hlt⟩
  · exact .inl hlt
  · exact .inr ⟨congrArg h.schemaAt heq, hlt⟩

/-- The old tables stand among all tables as they stood before. -/
theorem filter_tableSlots :
    (more.tableSlots.filter fun u => u ∈ d.tableSlots.map h.lift) = d.tableSlots.map h.lift := by
  have hnodup : (d.tableSlots.map h.lift).Nodup := (nodup_tableSlots d).map h.lift_injective
  have hperm : (more.tableSlots.filter fun u => u ∈ d.tableSlots.map h.lift).Perm
      (d.tableSlots.map h.lift) := by
    refine (List.perm_ext_iff_of_nodup ((nodup_tableSlots more).filter _) hnodup).mpr fun u => ?_
    rw [List.mem_filter, decide_eq_true_iff, and_iff_right (mem_tableSlots u)]
  refine hperm.eq_of_pairwise (fun t u _ _ htu hut => absurd hut htu.asymm)
    ((pairwise_tableSlots more).filter _) ?_
  exact List.pairwise_map.mpr ((pairwise_tableSlots d).imp h.before_lift)

variable {options : OrderOptions}

/-- **The order of the old tables.** Where both definitions can be ordered, the order of the
larger one puts the old tables in the order that they had. -/
theorem filter_creationOrder {order : List (TableSlot d)} {orderMore : List (TableSlot more)}
    (hd : d.creationOrder options = .ok order)
    (hmore : more.creationOrder options = .ok orderMore) :
    (orderMore.filter fun u => u ∈ d.tableSlots.map h.lift) = order.map h.lift := by
  obtain ⟨small, hsmall, horder⟩ := creationOrder_eq_ok_iff.mp hd
  obtain ⟨big, hbig, horderMore⟩ := creationOrder_eq_ok_iff.mp hmore
  obtain ⟨-, rfl⟩ := Digraph.order_eq_ok_iff.mp horder
  obtain ⟨-, rfl⟩ := Digraph.order_eq_ok_iff.mp horderMore
  have hwithin : small.Within h.lift big := ⟨h.lift_injective, h.embedding.needs_iff hsmall hbig⟩
  refine hwithin.filter_rounds (fun t => ?_) ?_
  · exact decide_eq_true (List.mem_map_of_mem (mem_tableSlots t))
  · rw [(dependencyGraph_spec hbig).1, (dependencyGraph_spec hsmall).1]
    exact h.filter_tableSlots

end Definition.Extends

end LayeredSchema
