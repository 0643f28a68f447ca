import LayeredSchema.Proofs.Order.Peel

/-!
# What a walk meets

`Digraph.visit` goes from a queue to the neighbours of what it takes off the queue, and
strikes each node that it meets off a list. Three facts say what it meets: everything
in the queue that is on the list (`mem_visit_of_queue`), with each node the neighbours
that are on the list (`mem_visit_of_next`), and nothing that no path leads to
(`exists_of_mem_visit`). No account is needed of the order in which nodes are met. Nodes that
are not on the list may be kept out of the queue (`visit_append_filter`).

For the closures of a node it follows that they hold exactly the other nodes that it
needs, directly or not, and that need it (`mem_upstream_iff`, `mem_downstream_iff`).
-/

namespace LayeredSchema.Digraph

open Relation (ReflTransGen TransGen)

variable {α : Type} [DecidableEq α]

/-! ## From a queue -/

section Visit

variable {next : α → List α} {unseen queue : List α} {a b : α}

/-- Only nodes of the list are met. -/
theorem mem_unseen_of_mem_visit (h : b ∈ visit next unseen queue) : b ∈ unseen := by
  fun_induction visit next unseen queue with
  | case1 unseen => exact absurd h List.not_mem_nil
  | case2 unseen a queue ha ih =>
    rcases List.mem_cons.mp h with rfl | h
    · exact ha
    · exact List.mem_of_mem_erase (ih h)
  | case3 unseen a queue ha ih => exact ih h

/-- Whatever is met is in the queue, or a path leads to it from there. -/
theorem exists_of_mem_visit (h : b ∈ visit next unseen queue) :
    ∃ a ∈ queue, ReflTransGen (fun x y => y ∈ next x) a b := by
  fun_induction visit next unseen queue with
  | case1 unseen => exact absurd h List.not_mem_nil
  | case2 unseen a queue ha ih =>
    rcases List.mem_cons.mp h with rfl | h
    · exact ⟨b, List.mem_cons_self, .refl⟩
    · obtain ⟨c, hc, hcb⟩ := ih h
      rcases List.mem_append.mp hc with hc | hc
      · exact ⟨c, List.mem_cons_of_mem a hc, hcb⟩
      · exact ⟨a, List.mem_cons_self, .head hc hcb⟩
  | case3 unseen a queue ha ih =>
    obtain ⟨c, hc, hcb⟩ := ih h
    exact ⟨c, List.mem_cons_of_mem a hc, hcb⟩

/-- What is in the queue is met. -/
theorem mem_visit_of_queue (hqueue : b ∈ queue) (hunseen : b ∈ unseen) :
    b ∈ visit next unseen queue := by
  fun_induction visit next unseen queue with
  | case1 unseen => exact absurd hqueue List.not_mem_nil
  | case2 unseen a queue ha ih =>
    by_cases hba : b = a
    · exact hba ▸ List.mem_cons_self
    · have hrest : b ∈ queue := (List.mem_cons.mp hqueue).resolve_left hba
      refine List.mem_cons_of_mem a (ih (List.mem_append_left _ hrest) ?_)
      exact (List.mem_erase_of_ne hba).mpr hunseen
  | case3 unseen a queue ha ih =>
    rcases List.mem_cons.mp hqueue with rfl | hrest
    · exact absurd hunseen ha
    · exact ih hrest hunseen

/-- And so are the neighbours of what is met. -/
theorem mem_visit_of_next (ha : a ∈ visit next unseen queue) (hnext : b ∈ next a)
    (hunseen : b ∈ unseen) : b ∈ visit next unseen queue := by
  fun_induction visit next unseen queue with
  | case1 unseen => exact absurd ha List.not_mem_nil
  | case2 unseen c queue hc ih =>
    by_cases hbc : b = c
    · exact hbc ▸ List.mem_cons_self
    · have hrest : b ∈ unseen.erase c := (List.mem_erase_of_ne hbc).mpr hunseen
      refine List.mem_cons_of_mem c ?_
      rcases List.mem_cons.mp ha with rfl | ha
      · -- the neighbours of the node that is met first are in the queue from then on
        exact mem_visit_of_queue (List.mem_append_right queue hnext) hrest
      · exact ih ha hrest
  | case3 unseen c queue hc ih => exact ih ha hunseen

/-- A node in the queue that is not on the list makes no difference. -/
theorem visit_append_cons {queue' : List α} (ha : a ∉ unseen) :
    visit next unseen (queue ++ a :: queue') = visit next unseen (queue ++ queue') := by
  generalize hall : queue ++ queue' = all
  fun_induction visit next unseen all generalizing queue queue' with
  | case1 unseen =>
    obtain ⟨rfl, rfl⟩ := List.append_eq_nil_iff.mp hall
    rw [List.nil_append, visit, if_neg ha, visit]
  | case2 unseen b all hb ih =>
    cases queue with
    | nil =>
      obtain rfl : queue' = b :: all := hall
      rw [List.nil_append, visit, if_neg ha, visit, if_pos hb]
    | cons c queue =>
      obtain ⟨rfl, rfl⟩ := List.cons.inj hall
      rw [List.cons_append, visit, if_pos hb, List.append_assoc, List.cons_append]
      refine congrArg (c :: ·) (ih (fun hmem => ha (List.mem_of_mem_erase hmem)) ?_)
      exact (List.append_assoc queue queue' (next c)).symm
  | case3 unseen b all hb ih =>
    cases queue with
    | nil =>
      obtain rfl : queue' = b :: all := hall
      rw [List.nil_append, visit, if_neg ha, visit, if_neg hb]
    | cons c queue =>
      obtain ⟨rfl, rfl⟩ := List.cons.inj hall
      rw [List.cons_append, visit, if_neg hb]
      exact ih ha rfl

/-- So they may be left out when they would enter the queue. -/
theorem visit_append_filter {p : α → Bool} {entering : List α}
    (h : ∀ b ∈ entering, p b = false → b ∉ unseen) :
    visit next unseen (queue ++ entering.filter p) = visit next unseen (queue ++ entering) := by
  induction entering generalizing queue with
  | nil => rfl
  | cons b entering ih =>
    obtain ⟨hb, hrest⟩ := List.forall_mem_cons.mp h
    cases hp : p b with
    | true =>
      rw [List.filter_cons_of_pos hp, List.append_cons, ih hrest, ← List.append_cons]
    | false =>
      rw [List.filter_cons_of_neg (by simp [hp]), ih hrest, visit_append_cons (hb hp)]

end Visit

/-! ## From a node -/

/-- **A walk from a node.** It meets every other node that a path leads to, even if some path
comes back to the node on the way. -/
theorem mem_visit_iff {next : α → List α} {nodes : List α} (hall : ∀ a, a ∈ nodes)
    (hnodup : nodes.Nodup) {a b : α} :
    b ∈ visit next (nodes.erase a) (next a) ↔ b ≠ a ∧ TransGen (fun x y => y ∈ next x) a b := by
  have hunseen : ∀ c, c ∈ nodes.erase a ↔ c ≠ a := by
    intro c
    rw [hnodup.mem_erase_iff, and_iff_left (hall c)]
  constructor
  · intro hb
    refine ⟨(hunseen b).mp (mem_unseen_of_mem_visit hb), ?_⟩
    obtain ⟨c, hc, hcb⟩ := exists_of_mem_visit hb
    exact TransGen.head' hc hcb
  · intro h
    obtain ⟨hne, hpath⟩ := h
    induction hpath with
    | single hab => exact mem_visit_of_queue hab ((hunseen _).mpr hne)
    | @tail c b hac hcb ih =>
      by_cases hca : c = a
      · subst hca
        exact mem_visit_of_queue hcb ((hunseen b).mpr hne)
      · exact mem_visit_of_next (ih hca) hcb ((hunseen b).mpr hne)

section Closures

variable {g : Digraph α} (hall : ∀ a, a ∈ g.nodes) (hnodup : g.nodes.Nodup) {a b : α}
include hall

theorem mem_children_iff : b ∈ g.children a ↔ g.Needs b a := by
  simp [children, Needs, hall b]

include hnodup

theorem mem_upstream_iff : b ∈ g.upstream a ↔ b ≠ a ∧ TransGen g.Needs a b :=
  mem_visit_iff hall hnodup

theorem mem_downstream_iff : b ∈ g.downstream a ↔ b ≠ a ∧ TransGen g.Needs b a := by
  have hswap : (fun x y => y ∈ g.children x) = Function.swap g.Needs := by
    funext x y
    exact propext (mem_children_iff hall)
  unfold downstream
  rw [mem_visit_iff hall hnodup, hswap, Relation.transGen_swap]

end Closures

end LayeredSchema.Digraph
