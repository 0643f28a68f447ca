import LayeredSchema.Proofs.Order.Creation
import LayeredSchema.Proofs.Order.Walk

/-!
# Closures and orders

What a node needs, directly or not, is found by a walk along the parents, what needs it by
another walk along the children, and an order of all nodes by neither of them, in rounds. The
three agree. One node is upstream of another one exactly if that one is downstream of it; an
order puts everything upstream of a node before it and everything downstream after it
(`between_closures`), and the reverse of the order the other way round (`Between.reverse`);
and there is no order exactly if some node is its own parent or two nodes are upstream of each
other (`exists_transGen_self_iff`).

All of this goes through `TransGen`: both walks are exact for it, and an order that respects
each single edge respects each path.
-/

namespace LayeredSchema

open Relation (TransGen)

/-! ## Lists in which nodes stand between others -/

section Between

variable {α : Type} [DecidableEq α]

/-- The list holds every node once, and each of them stands after all nodes of one list and
before all nodes of another one. -/
structure Between (before after : α → List α) (order : List α) : Prop where
  count_eq_one : ∀ a, order.count a = 1
  before_lt : ∀ a, ∀ b ∈ before a, order.idxOf b < order.idxOf a
  lt_after : ∀ a, ∀ b ∈ after a, order.idxOf a < order.idxOf b

/-- A place counted from the other end. -/
theorem idxOf_reverse {l : List α} (hnodup : l.Nodup) {a : α} (ha : a ∈ l) :
    l.reverse.idxOf a = l.length - 1 - l.idxOf a := by
  have hplace : l.idxOf a < l.length := List.idxOf_lt_length_of_mem ha
  have hrev : l.length - 1 - l.idxOf a < l.reverse.length := by
    rw [List.length_reverse]
    omega
  have hget : l.reverse[l.length - 1 - l.idxOf a] = a := by
    rw [List.getElem_reverse]
    have hsame : l.length - 1 - (l.length - 1 - l.idxOf a) = l.idxOf a := by omega
    simp only [hsame, List.getElem_idxOf]
  conv_lhs => rw [← hget]
  exact (List.nodup_reverse.mpr hnodup).idxOf_getElem _ hrev

namespace Between

variable {before after : α → List α} {order : List α}

theorem mem (h : Between before after order) (a : α) : a ∈ order :=
  List.count_pos_iff.mp (by rw [h.count_eq_one a]; exact Nat.one_pos)

theorem nodup (h : Between before after order) : order.Nodup :=
  List.nodup_iff_count_le_one.mpr fun a => Nat.le_of_eq (h.count_eq_one a)

/-- Read from its end, a list has the other side in front. -/
theorem reverse (h : Between before after order) : Between after before order.reverse := by
  have hlt : ∀ a b, order.idxOf a < order.idxOf b →
      order.reverse.idxOf b < order.reverse.idxOf a := by
    intro a b hab
    have hb := List.idxOf_lt_length_of_mem (h.mem b)
    rw [idxOf_reverse h.nodup (h.mem a), idxOf_reverse h.nodup (h.mem b)]
    omega
  refine ⟨fun a => ?_, fun a b hb => ?_, fun a b hb => ?_⟩
  · rw [List.count_reverse, h.count_eq_one a]
  · exact hlt a b (h.lt_after a b hb)
  · exact hlt b a (h.before_lt a b hb)

end Between

end Between

/-! ## Any graph -/

namespace Digraph

variable {α : Type}

/-- A cycle is an edge from a node to itself, or it passes through another node, which then
lies on it as well. -/
theorem exists_transGen_self_iff {r : α → α → Prop} :
    (∃ a, TransGen r a a) ↔
      (∃ a, r a a) ∨ ∃ a b, a ≠ b ∧ TransGen r a b ∧ TransGen r b a := by
  constructor
  · intro h
    obtain ⟨a, ha⟩ := h
    obtain ⟨b, hab, hba⟩ := TransGen.head'_iff.mp ha
    rcases Relation.reflTransGen_iff_eq_or_transGen.mp hba with rfl | hba
    · exact .inl ⟨a, hab⟩
    · by_cases hne : a = b
      · exact .inl ⟨a, hne ▸ hab⟩
      · exact .inr ⟨a, b, hne, .single hab, hba⟩
  · intro h
    rcases h with ⟨a, ha⟩ | ⟨a, b, -, hab, hba⟩
    · exact ⟨a, .single ha⟩
    · exact ⟨a, hab.trans hba⟩

variable [DecidableEq α] {g : Digraph α} (hall : ∀ a, a ∈ g.nodes)
include hall

/-- In an order every node comes after all that it needs, directly or not. -/
theorem order_respects_transGen {order : List α} (h : g.order = .ok order) {a b : α}
    (hab : TransGen g.Needs a b) : order.idxOf b < order.idxOf a := by
  induction hab with
  | single hab => exact order_respects h (hall a) (hall _) hab
  | tail _ hbc ih => exact (order_respects h (hall _) (hall _) hbc).trans ih

variable (hnodup : g.nodes.Nodup)
include hnodup

theorem mem_upstream_iff_mem_downstream {a b : α} : b ∈ g.upstream a ↔ a ∈ g.downstream b := by
  rw [mem_upstream_iff hall hnodup, mem_downstream_iff hall hnodup, ne_comm]

/-- **An order stands between the closures.** -/
theorem between_closures {order : List α} (h : g.order = .ok order) :
    Between g.upstream g.downstream order where
  count_eq_one a := by
    rw [(order_perm h).count_eq]
    exact List.count_eq_one_of_mem hnodup (hall a)
  before_lt a b hb := order_respects_transGen hall h ((mem_upstream_iff hall hnodup).mp hb).2
  lt_after a b hb := order_respects_transGen hall h ((mem_downstream_iff hall hnodup).mp hb).2

end Digraph

/-! ## The graph of a definition -/

namespace Definition

variable {d : Definition} {options : OrderOptions}

/-- **Closures and orders agree.** What is upstream of a table has the table downstream; there
is no order exactly if some table is its own parent or two tables are upstream of each other;
and where there is one, tables can be created after all that is upstream of them and dropped
after all that is downstream. -/
theorem closures_agree_with_orders {g : Digraph (TableSlot d)}
    (h : d.dependencyGraph options = .ok g) :
    (∀ t u, u ∈ g.upstream t ↔ t ∈ g.downstream u) ∧
    ((∃ names, g.creationOrder = .error (.cycle names)) ↔
      (∃ t, t ∈ g.parents t) ∨ ∃ t u, t ≠ u ∧ u ∈ g.upstream t ∧ t ∈ g.upstream u) ∧
    ∀ order, g.creationOrder = .ok order →
      Between g.upstream g.downstream order ∧
        ∃ drops, g.dropOrder = .ok drops ∧ Between g.downstream g.upstream drops := by
  have hall := mem_nodes h
  have hnodup := nodup_nodes h
  refine ⟨fun t u => Digraph.mem_upstream_iff_mem_downstream hall hnodup, ?_, ?_⟩
  · have hrefused : (∃ names, g.creationOrder = .error (.cycle names)) ↔
        g.schedule.stuck ≠ [] := by
      simp [Digraph.creationOrder_eq_error_iff]
    rw [hrefused, Digraph.stuck_ne_nil_iff hall, Digraph.exists_transGen_self_iff]
    refine or_congr_right (exists_congr fun t => exists_congr fun u => and_congr_right fun hne => ?_)
    rw [Digraph.mem_upstream_iff hall hnodup, Digraph.mem_upstream_iff hall hnodup,
      and_iff_right hne.symm, and_iff_right hne]
  · intro order horder
    have hbetween := Digraph.between_closures hall hnodup
      (Digraph.creationOrder_eq_ok_iff.mp horder)
    refine ⟨hbetween, order.reverse, ?_, hbetween.reverse⟩
    rw [Digraph.dropOrder, horder]
    rfl

theorem closures_agree_with_orders_bookshop_knot :
    (∃ (g : Digraph (TableSlot bookshop)) (order drops : List (TableSlot bookshop)),
      bookshop.dependencyGraph {} = .ok g ∧ g.creationOrder = .ok order ∧
      order.map TableSlot.qualifiedName =
        ["sales.customers", "stock.books", "sales.orders", "sales.Customers"] ∧
      g.dropOrder = .ok drops ∧ Between g.upstream g.downstream order ∧
      Between g.downstream g.upstream drops) ∧
    ∃ g : Digraph (TableSlot knot),
      knot.dependencyGraph { allowSelfReferences := false } = .ok g ∧
      (∃ t, t ∈ g.parents t) ∧ ∃ names, g.creationOrder = .error (.cycle names) := by
  constructor
  · have heval : ((bookshop.dependencyGraph {}).toOption.bind fun g =>
        g.creationOrder.toOption.map (·.map TableSlot.qualifiedName)) =
        some ["sales.customers", "stock.books", "sales.orders", "sales.Customers"] := by
      decide +kernel
    obtain ⟨g, hg, heval⟩ := Option.bind_eq_some_iff.mp heval
    obtain ⟨order, horder, hnames⟩ := Option.map_eq_some_iff.mp heval
    have h := eq_ok_of_toOption hg
    have hok := eq_ok_of_toOption horder
    obtain ⟨-, -, hagree⟩ := closures_agree_with_orders h
    obtain ⟨hbetween, drops, hdrops, hback⟩ := hagree order hok
    exact ⟨g, order, drops, h, hok, hnames, hdrops, hbetween, hback⟩
  · have heval : ((knot.dependencyGraph { allowSelfReferences := false }).toOption.map fun g =>
        decide (∃ t ∈ knot.tableSlots, t ∈ g.parents t)) = some true := by
      decide +kernel
    obtain ⟨g, hg, hself⟩ := Option.map_eq_some_iff.mp heval
    have h := eq_ok_of_toOption hg
    obtain ⟨t, -, ht⟩ := of_decide_eq_true hself
    obtain ⟨-, hcycle, -⟩ := closures_agree_with_orders h
    exact ⟨g, h, ⟨t, ht⟩, hcycle.mpr (.inl ⟨t, ht⟩)⟩

end Definition

end LayeredSchema
