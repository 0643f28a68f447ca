import LayeredSchema.Order.Digraph
import Mathlib.Data.List.Basic
import Mathlib.Data.Set.Finite.Basic
import Mathlib.Logic.Relation
import Mathlib.Order.WellFounded

/-!
# Peeling a graph in rounds

`Digraph.peel` takes away, round after round, every node of which no parent
remains. This file says what the rounds take, in which order, and what they
leave, for an arbitrary graph:

* nothing is lost and nothing is taken twice (`peel_perm`), and what is left
  stands in the order of the nodes (`stuck_sublist`);
* a node that is taken comes after each of its parents (`idxOf_lt_of_needs`);
* a node is left exactly if it leads to a cycle (`mem_stuck_iff`), and so some
  node is left exactly if there is a cycle (`stuck_ne_nil_iff`).

The last one needs both directions. A remainder in which no node is ready has
a parent inside itself for each of its nodes, and a finite set like that leads
to a cycle (`leadsToCycle_of_needs_within`). Conversely whatever leads to a
cycle has a parent that does, so that no round can be the first to take one
(`mem_stuck_of_needs_within`).
-/

namespace LayeredSchema.Digraph

open Relation (ReflTransGen TransGen)

variable {α : Type}

/-- One node needs another one directly. -/
def Needs (g : Digraph α) (a b : α) : Prop := b ∈ g.parents a

/-- A node that lies on a cycle, or needs one that does, directly or not. -/
def LeadsToCycle (g : Digraph α) (a : α) : Prop :=
  ∃ b, ReflTransGen g.Needs a b ∧ TransGen g.Needs b b

/-- The parents of the nodes are nodes. -/
def Closed (g : Digraph α) : Prop := ∀ a ∈ g.nodes, ∀ b, g.Needs a b → b ∈ g.nodes

theorem closed_of_all {g : Digraph α} (hall : ∀ a, a ∈ g.nodes) : g.Closed :=
  fun _ _ b _ => hall b

/-! ## Cycles -/

theorem leadsToCycle_of_onCycle {g : Digraph α} {a : α} (h : TransGen g.Needs a a) :
    g.LeadsToCycle a :=
  ⟨a, .refl, h⟩

/-- Whatever needs a node that leads to a cycle leads to it as well. -/
theorem LeadsToCycle.of_needs {g : Digraph α} {a b : α} (h : g.LeadsToCycle b)
    (hab : g.Needs a b) : g.LeadsToCycle a := by
  obtain ⟨c, hbc, hc⟩ := h
  exact ⟨c, .head hab hbc, hc⟩

/-- A node that leads to a cycle has a parent that does: the next node on the
way there or, once there, the next one on the cycle. -/
theorem LeadsToCycle.exists_needs {g : Digraph α} {a : α} (h : g.LeadsToCycle a) :
    ∃ b, g.Needs a b ∧ g.LeadsToCycle b := by
  obtain ⟨c, hac, hc⟩ := h
  rcases ReflTransGen.cases_head hac with rfl | ⟨b, hab, hbc⟩
  · obtain ⟨b, hab, hba⟩ := TransGen.head'_iff.mp hc
    exact ⟨b, hab, a, hba, hc⟩
  · exact ⟨b, hab, c, hbc, hc⟩

/-- Paths into a cycle are kept where nodes need at least what they need here. -/
theorem LeadsToCycle.lift {β : Type} {g : Digraph α} {g' : Digraph β} {a : α}
    (h : g.LeadsToCycle a) (f : α → β) (hneeds : ∀ a b, g.Needs a b → g'.Needs (f a) (f b)) :
    g'.LeadsToCycle (f a) := by
  obtain ⟨b, hab, hb⟩ := h
  exact ⟨f b, hab.lift f hneeds, hb.lift f hneeds⟩

/-- In a finite set of nodes each of which has a parent in the set, every node
leads to a cycle. Without cycles "needs, directly or not" would be well-founded
on the set, and a minimal node has no parent there. -/
theorem leadsToCycle_of_needs_within {g : Digraph α} {remaining : List α}
    (h : ∀ a ∈ remaining, ∃ b ∈ remaining, g.Needs a b) :
    ∀ a ∈ remaining, g.LeadsToCycle a := by
  by_contra hnot
  push Not at hnot
  obtain ⟨a, ha, hacyc⟩ := hnot
  -- the nodes of the set that lead to no cycle, of which we show that there are none
  let S := {b : α // b ∈ remaining ∧ ¬ g.LeadsToCycle b}
  have hfin : Finite S :=
    (remaining.finite_toSet.subset fun b hb => hb.1 :
      {b | b ∈ remaining ∧ ¬ g.LeadsToCycle b}.Finite)
  have htrans : IsTrans S (fun b c => TransGen g.Needs c.1 b.1) :=
    ⟨fun _ _ _ hab hbc => hbc.trans hab⟩
  have hirrefl : Std.Irrefl (fun b c : S => TransGen g.Needs c.1 b.1) :=
    ⟨fun b hb => b.2.2 (leadsToCycle_of_onCycle hb)⟩
  have hwf : WellFounded (fun b c : S => TransGen g.Needs c.1 b.1) :=
    Finite.wellFounded_of_trans_of_irrefl _
  have hfalse : ∀ _ : S, False := by
    intro b
    induction b using hwf.induction with
    | _ b ih =>
      obtain ⟨c, hc, hbc⟩ := h b.1 b.2.1
      have hcacyc : ¬ g.LeadsToCycle c := fun hcyc => b.2.2 (hcyc.of_needs hbc)
      exact ih ⟨c, hc, hcacyc⟩ (.single hbc)
  exact hfalse ⟨a, ha, hacyc⟩

variable [DecidableEq α]

/-! ## One round -/

theorem mem_ready {g : Digraph α} {remaining : List α} {a : α} :
    a ∈ g.ready remaining ↔ a ∈ remaining ∧ ∀ b, g.Needs a b → b ∉ remaining := by
  simp [ready, Needs]

theorem mem_unready {g : Digraph α} {remaining : List α} {a : α} :
    a ∈ g.unready remaining ↔ a ∈ remaining ∧ a ∉ g.ready remaining := by
  simp [unready]

theorem unready_sublist {g : Digraph α} {remaining : List α} :
    (g.unready remaining).Sublist remaining :=
  List.filter_sublist

/-- The ready nodes keep their order. -/
theorem ready_eq_filter (g : Digraph α) (remaining : List α) :
    g.ready remaining = remaining.filter fun a => a ∈ g.ready remaining := by
  conv_lhs => rw [ready]
  refine List.filter_congr fun a ha => ?_
  rw [Bool.eq_iff_iff, decide_eq_true_iff, mem_ready]
  simp [Needs, ha]

/-- A round splits the nodes that remain. -/
theorem ready_append_unready_perm (g : Digraph α) (remaining : List α) :
    (g.ready remaining ++ g.unready remaining).Perm remaining := by
  have hsplit := List.filter_append_perm (fun a => decide (a ∈ g.ready remaining)) remaining
  rw [← ready_eq_filter] at hsplit
  simpa only [unready, ← decide_not] using hsplit

/-! ## All rounds -/

theorem peel_of_ready_nil {g : Digraph α} {remaining : List α}
    (h : g.ready remaining = []) : g.peel remaining = ⟨[], remaining⟩ := by
  rw [peel, if_pos h]

theorem rounds_of_ready {g : Digraph α} {remaining : List α} (h : g.ready remaining ≠ []) :
    (g.peel remaining).rounds =
      g.ready remaining :: (g.peel (g.unready remaining)).rounds := by
  rw [peel, if_neg h]

theorem stuck_of_ready {g : Digraph α} {remaining : List α} (h : g.ready remaining ≠ []) :
    (g.peel remaining).stuck = (g.peel (g.unready remaining)).stuck := by
  rw [peel, if_neg h]

/-- The rounds and the remainder together are the nodes there were. -/
theorem peel_perm (g : Digraph α) (remaining : List α) :
    ((g.peel remaining).rounds.flatten ++ (g.peel remaining).stuck).Perm remaining := by
  induction remaining using peel.induct g with
  | case1 remaining h =>
    rw [peel_of_ready_nil h]
    exact .refl _
  | case2 remaining h ih =>
    rw [rounds_of_ready h, stuck_of_ready h, List.flatten_cons, List.append_assoc]
    exact (ih.append_left _).trans (ready_append_unready_perm g remaining)

theorem mem_rounds_or_mem_stuck {g : Digraph α} {remaining : List α} {a : α} :
    (a ∈ (g.peel remaining).rounds.flatten ∨ a ∈ (g.peel remaining).stuck) ↔
      a ∈ remaining := by
  rw [← List.mem_append]
  exact (peel_perm g remaining).mem_iff

/-- The remainder keeps the order of the nodes. -/
theorem stuck_sublist (g : Digraph α) (remaining : List α) :
    (g.peel remaining).stuck.Sublist remaining := by
  induction remaining using peel.induct g with
  | case1 remaining h =>
    rw [peel_of_ready_nil h]
  | case2 remaining h ih =>
    rw [stuck_of_ready h]
    exact ih.trans unready_sublist

/-- No node of the remainder is ready. -/
theorem ready_stuck (g : Digraph α) (remaining : List α) :
    g.ready (g.peel remaining).stuck = [] := by
  induction remaining using peel.induct g with
  | case1 remaining h =>
    rw [peel_of_ready_nil h]
    exact h
  | case2 remaining h ih =>
    rw [stuck_of_ready h]
    exact ih

/-- A node that is taken comes later than each of its parents. A parent either
went in an earlier round, or remained after the first one like the node itself. -/
theorem idxOf_lt_of_needs {g : Digraph α} {remaining : List α} {a b : α}
    (ha : a ∈ (g.peel remaining).rounds.flatten) (hb : b ∈ remaining) (hab : g.Needs a b) :
    (g.peel remaining).rounds.flatten.idxOf b < (g.peel remaining).rounds.flatten.idxOf a := by
  induction remaining using peel.induct g with
  | case1 remaining h =>
    rw [peel_of_ready_nil h] at ha
    exact absurd ha List.not_mem_nil
  | case2 remaining h ih =>
    rw [rounds_of_ready h, List.flatten_cons] at ha ⊢
    have hnotready : a ∉ g.ready remaining := fun hr => (mem_ready.mp hr).2 b hab hb
    have ha' : a ∈ (g.peel (g.unready remaining)).rounds.flatten :=
      (List.mem_append.mp ha).resolve_left hnotready
    rw [List.idxOf_append_of_notMem hnotready]
    by_cases hbr : b ∈ g.ready remaining
    · have hlt := List.idxOf_lt_length_of_mem hbr
      rw [List.idxOf_append_of_mem hbr]
      omega
    · have hlt := ih ha' (mem_unready.mpr ⟨hb, hbr⟩)
      rw [List.idxOf_append_of_notMem hbr]
      omega

/-- A set of remaining nodes each of which has a parent in the set is left
whole: the first of them to be taken would have that parent taken before. -/
theorem mem_stuck_of_needs_within {g : Digraph α} {p : α → Prop}
    (hp : ∀ a, p a → ∃ b, g.Needs a b ∧ p b) {remaining : List α}
    (h : ∀ a, p a → a ∈ remaining) : ∀ a, p a → a ∈ (g.peel remaining).stuck := by
  induction remaining using peel.induct g with
  | case1 remaining hr =>
    rw [peel_of_ready_nil hr]
    exact h
  | case2 remaining hr ih =>
    rw [stuck_of_ready hr]
    refine ih fun a ha => mem_unready.mpr ⟨h a ha, fun hready => ?_⟩
    obtain ⟨b, hab, hb⟩ := hp a ha
    exact (mem_ready.mp hready).2 b hab (h b hb)

/-! ## The whole graph -/

/-- **What no round can take.** The remainder of a graph holds exactly the nodes
that lead to a cycle. -/
theorem mem_stuck_iff {g : Digraph α} (hg : g.Closed) {a : α} (ha : a ∈ g.nodes) :
    a ∈ g.schedule.stuck ↔ g.LeadsToCycle a := by
  constructor
  · intro hstuck
    suffices hparent : ∀ b ∈ g.schedule.stuck, ∃ c ∈ g.schedule.stuck, g.Needs b c from
      leadsToCycle_of_needs_within hparent a hstuck
    intro b hb
    -- `b` is not ready, so that some parent of it is still there
    have hnot : b ∉ g.ready g.schedule.stuck := by
      rw [schedule, ready_stuck]
      exact List.not_mem_nil
    rw [mem_ready] at hnot
    push Not at hnot
    obtain ⟨c, hbc, hc⟩ := hnot hb
    exact ⟨c, hc, hbc⟩
  · intro hcyc
    refine mem_stuck_of_needs_within (p := fun b => b ∈ g.nodes ∧ g.LeadsToCycle b)
      ?_ (fun b hb => hb.1) a ⟨ha, hcyc⟩
    intro b h
    obtain ⟨hb, hbcyc⟩ := h
    obtain ⟨c, hbc, hccyc⟩ := hbcyc.exists_needs
    exact ⟨c, hbc, hg b hb c hbc, hccyc⟩

/-- **When there is no order.** The rounds leave something exactly if some node needs itself,
directly or not. -/
theorem stuck_ne_nil_iff {g : Digraph α} (hall : ∀ a, a ∈ g.nodes) :
    g.schedule.stuck ≠ [] ↔ ∃ a, TransGen g.Needs a a := by
  have hstuck : ∀ a, a ∈ g.schedule.stuck ↔ g.LeadsToCycle a := fun a =>
    mem_stuck_iff (closed_of_all hall) (hall a)
  constructor
  · intro hne
    obtain ⟨a, ha⟩ := List.exists_mem_of_ne_nil _ hne
    obtain ⟨b, -, hb⟩ := (hstuck a).mp ha
    exact ⟨b, hb⟩
  · intro hcycle
    obtain ⟨a, ha⟩ := hcycle
    exact List.ne_nil_of_mem ((hstuck a).mpr (leadsToCycle_of_onCycle ha))

/-- The rounds take exactly the nodes that lead to no cycle. -/
theorem mem_rounds_iff {g : Digraph α} (hg : g.Closed) (hnodup : g.nodes.Nodup) {a : α}
    (ha : a ∈ g.nodes) : a ∈ g.schedule.rounds.flatten ↔ ¬ g.LeadsToCycle a := by
  rw [← mem_stuck_iff hg ha]
  have hsplit := (peel_perm g g.nodes).nodup_iff.mpr hnodup
  have hdisj := (List.nodup_append'.mp hsplit).2.2
  constructor
  · intro hround hstuck
    exact hdisj hround hstuck
  · intro hstuck
    exact (mem_rounds_or_mem_stuck.mpr ha).resolve_right hstuck

theorem order_eq_ok_iff {g : Digraph α} {order : List α} :
    g.order = .ok order ↔ g.schedule.stuck = [] ∧ order = g.schedule.rounds.flatten := by
  unfold Digraph.order
  split
  next h => simp [h, eq_comm]
  next h => simp [h]

theorem order_eq_error_iff {g : Digraph α} {stuck : List α} :
    g.order = .error stuck ↔ g.schedule.stuck ≠ [] ∧ stuck = g.schedule.stuck := by
  unfold Digraph.order
  split
  next h => simp [h]
  next h => simp [h, eq_comm]

/-- An order lists every node as often as the graph does. -/
theorem order_perm {g : Digraph α} {order : List α} (h : g.order = .ok order) :
    order.Perm g.nodes := by
  obtain ⟨hstuck, rfl⟩ := order_eq_ok_iff.mp h
  have hperm := peel_perm g g.nodes
  rw [show (g.peel g.nodes).stuck = [] from hstuck, List.append_nil] at hperm
  exact hperm

/-- In an order every node comes after those that it needs. -/
theorem order_respects {g : Digraph α} {order : List α} (h : g.order = .ok order) {a b : α}
    (ha : a ∈ g.nodes) (hb : b ∈ g.nodes) (hab : g.Needs a b) :
    order.idxOf b < order.idxOf a := by
  have ha' : a ∈ order := (order_perm h).mem_iff.mpr ha
  obtain ⟨-, rfl⟩ := order_eq_ok_iff.mp h
  exact idxOf_lt_of_needs ha' hb hab

end LayeredSchema.Digraph
