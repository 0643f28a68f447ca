import LayeredSchema.Proofs.Order.Dependency
import LayeredSchema.Proofs.Order.Walk
import Mathlib.Order.Lattice.Nat

/-!
# The order of a walk

`Digraph.visit` takes nodes off the front of a queue and puts their neighbours at its
end, and it strikes a node off when it is met, not when it is put into the queue. So the
queue may hold a node many times, and nodes that have been met already. What it meets is
still listed once each and by distance, the nearest first.

The invariant is `InLevels`: at any time the queue is a `near` part, the ends of walks of
some length, followed by a `far` part, the ends of walks that are one step longer. A node
that was not met yet is at least as far away as the near part and, if it is just as far,
in the near part. One step keeps this (`InLevels.meet`, `InLevels.skip`), and when the near
part has run out the far part takes its place (`InLevels.deepen`): what it lacks would be
the neighbour of a node that was met, and the neighbours of those are in the queue. From
the steps follows what the whole walk lists (`InLevels.pairwise_visit`).

For the closures of a table in its dependency graph this is `closures_nearestFirst`.
-/

namespace LayeredSchema.Digraph

open Relation (TransGen)

variable {α : Type}

/-! ## Distance -/

/-- A walk of exactly so many edges leads from a node to another one. -/
inductive Steps (r : α → α → Prop) (a : α) : Nat → α → Prop
  | one {b : α} (hab : r a b) : Steps r a 1 b
  | more {n : Nat} {b c : α} (hb : Steps r a n b) (hbc : r b c) : Steps r a (n + 1) c

/-- The length of a shortest walk from a node to another one, for nodes that a walk leads to. -/
noncomputable def distance (r : α → α → Prop) (a b : α) : Nat := sInf {n | Steps r a n b}

section Distance

variable {r : α → α → Prop} {a b : α} {n : Nat}

theorem transGen_iff_exists_steps : TransGen r a b ↔ ∃ n, Steps r a n b := by
  constructor
  · intro h
    induction h with
    | single hab => exact ⟨1, .one hab⟩
    | tail _ hbc ih =>
      obtain ⟨n, hn⟩ := ih
      exact ⟨n + 1, .more hn hbc⟩
  · intro h
    obtain ⟨n, hn⟩ := h
    induction hn with
    | one hab => exact .single hab
    | more _ hbc ih => exact .tail ih hbc

/-- The distance is that of some walk, -/
theorem steps_distance (h : TransGen r a b) : Steps r a (distance r a b) b := by
  have hwalk : {n | Steps r a n b}.Nonempty := transGen_iff_exists_steps.mp h
  exact Nat.sInf_mem hwalk

/-- and no walk is shorter. -/
theorem distance_le (h : Steps r a n b) : distance r a b ≤ n := Nat.sInf_le h

theorem le_distance (h : TransGen r a b) (hfew : ∀ m < n, ¬ Steps r a m b) :
    n ≤ distance r a b := by
  by_contra hlt
  exact hfew _ (by omega) (steps_distance h)

end Distance

/-- What a list of all that can be reached from a node should be: every other node to which
a walk leads, listed once, and no node after one that is farther away. -/
structure NearestFirst (r : α → α → Prop) (start : α) (reached : List α) : Prop where
  nodup : reached.Nodup
  start_notMem : start ∉ reached
  mem_iff : ∀ b, b ∈ reached ↔ b ≠ start ∧ TransGen r start b
  sorted : reached.Pairwise fun b c => distance r start b ≤ distance r start c

/-! ## The levels of the queue -/

section Levels

variable {next : α → List α} {unseen near far : List α} {start a : α} {level : Nat}

/-- The queue of a walk from `start`, which holds the nodes at the end of `level` steps and
then those one step beyond. -/
structure InLevels (next : α → List α) (start : α) (unseen near far : List α) (level : Nat) :
    Prop where
  start_seen : start ∉ unseen
  near_steps : ∀ b ∈ near, Steps (fun x y => y ∈ next x) start level b
  far_steps : ∀ b ∈ far, Steps (fun x y => y ∈ next x) start (level + 1) b
  /-- No unseen node is nearer than the front of the queue, -/
  not_nearer : ∀ b ∈ unseen, ∀ n < level, ¬ Steps (fun x y => y ∈ next x) start n b
  /-- and those that are as near are in the queue. -/
  as_near : ∀ b ∈ unseen, Steps (fun x y => y ∈ next x) start level b → b ∈ near
  /-- The neighbours of the nodes that were met are in the queue until they are met. -/
  queued : ∀ c, c ∉ unseen → ∀ b ∈ next c, b ∈ unseen → b ∈ near ++ far

namespace InLevels

/-- The node at the front was met before. -/
theorem skip (h : InLevels next start unseen (a :: near) far level) (ha : a ∉ unseen) :
    InLevels next start unseen near far level where
  start_seen := h.start_seen
  near_steps := fun b hb => h.near_steps b (List.mem_cons_of_mem a hb)
  far_steps := h.far_steps
  not_nearer := h.not_nearer
  as_near := by
    intro b hb hsteps
    refine (List.mem_cons.mp (h.as_near b hb hsteps)).resolve_left ?_
    rintro rfl
    exact ha hb
  queued := by
    intro c hc b hcb hb
    refine (List.mem_cons.mp (h.queued c hc b hcb hb)).resolve_left ?_
    rintro rfl
    exact ha hb

/-- The near part has run out. An unseen node one step beyond it comes after a node that is
no longer unseen, and so it is in the far part. -/
theorem deepen (h : InLevels next start unseen [] far level) :
    InLevels next start unseen far [] (level + 1) where
  start_seen := h.start_seen
  near_steps := h.far_steps
  far_steps := fun b hb => absurd hb List.not_mem_nil
  not_nearer := by
    intro b hb n hn hsteps
    rcases Nat.lt_or_eq_of_le (Nat.le_of_lt_succ hn) with hlt | rfl
    · exact h.not_nearer b hb n hlt hsteps
    · exact List.not_mem_nil (h.as_near b hb hsteps)
  as_near := by
    intro b hb hsteps
    cases hsteps with
    | one hab => exact h.queued start h.start_seen b hab hb
    | @more _ c _ hc hcb =>
      have hseen : c ∉ unseen := fun hmem => List.not_mem_nil (h.as_near c hmem hc)
      exact h.queued c hseen b hcb hb
  queued := by
    intro c hc b hcb hb
    rw [List.append_nil]
    exact h.queued c hc b hcb hb

/-- Wherever the queue is split, its front can be taken to be in the near part. -/
theorem exists_front {rest : List α} (h : InLevels next start unseen near far level)
    (hqueue : near ++ far = a :: rest) :
    ∃ near' far' level', level ≤ level' ∧ near' ++ far' = rest ∧
      InLevels next start unseen (a :: near') far' level' := by
  cases near with
  | cons b near =>
    obtain ⟨rfl, rfl⟩ := List.cons.inj hqueue
    exact ⟨near, far, level, Nat.le_refl level, rfl, h⟩
  | nil =>
    obtain rfl : far = a :: rest := hqueue
    exact ⟨rest, [], level + 1, Nat.le_succ level, List.append_nil rest, h.deepen⟩

/-- The node at the front, if it is unseen, is as far away as its level says. -/
theorem distance_front (h : InLevels next start unseen (a :: near) far level)
    (ha : a ∈ unseen) : distance (fun x y => y ∈ next x) start a = level := by
  have hsteps := h.near_steps a List.mem_cons_self
  have hpath := transGen_iff_exists_steps.mpr ⟨level, hsteps⟩
  exact Nat.le_antisymm (distance_le hsteps) (le_distance hpath (h.not_nearer a ha))

variable [DecidableEq α]

/-- The node at the front is met, and its neighbours are put at the end. -/
theorem meet (h : InLevels next start unseen (a :: near) far level) (hnodup : unseen.Nodup) :
    InLevels next start (unseen.erase a) near (far ++ next a) level where
  start_seen := fun hs => h.start_seen (List.mem_of_mem_erase hs)
  near_steps := fun b hb => h.near_steps b (List.mem_cons_of_mem a hb)
  far_steps := by
    intro b hb
    rcases List.mem_append.mp hb with hb | hb
    · exact h.far_steps b hb
    · exact .more (h.near_steps a List.mem_cons_self) hb
  not_nearer := fun b hb => h.not_nearer b (List.mem_of_mem_erase hb)
  as_near := by
    intro b hb hsteps
    obtain ⟨hba, hb⟩ := hnodup.mem_erase_iff.mp hb
    exact (List.mem_cons.mp (h.as_near b hb hsteps)).resolve_left hba
  queued := by
    intro c hc b hcb hb
    obtain ⟨hba, hb⟩ := hnodup.mem_erase_iff.mp hb
    rw [← List.append_assoc]
    by_cases hca : c = a
    · exact List.mem_append_right _ (hca ▸ hcb)
    · have hc : c ∉ unseen := fun h => hc ((List.mem_erase_of_ne hca).mpr h)
      exact List.mem_append_left _ ((List.mem_cons.mp (h.queued c hc b hcb hb)).resolve_left hba)

/-- **The walk goes by distance.** From any time on it meets nodes that are as far away as
the front of the queue or farther, and the nearest of them first. -/
theorem pairwise_visit {queue : List α} (h : InLevels next start unseen near far level)
    (hqueue : near ++ far = queue) (hnodup : unseen.Nodup) :
    (∀ b ∈ visit next unseen queue, level ≤ distance (fun x y => y ∈ next x) start b) ∧
      (visit next unseen queue).Pairwise fun b c =>
        distance (fun x y => y ∈ next x) start b ≤ distance (fun x y => y ∈ next x) start c := by
  fun_induction visit next unseen queue generalizing near far level with
  | case1 unseen => exact ⟨fun b hb => absurd hb List.not_mem_nil, .nil⟩
  | case2 unseen a queue ha ih =>
    obtain ⟨near', far', level', hle, rfl, hfront⟩ := h.exists_front hqueue
    have hdist := hfront.distance_front ha
    obtain ⟨hfar, hsorted⟩ := ih (hfront.meet hnodup) (List.append_assoc ..).symm (hnodup.erase a)
    refine ⟨?_, List.pairwise_cons.mpr ⟨?_, hsorted⟩⟩
    · intro b hb
      rcases List.mem_cons.mp hb with rfl | hb
      · omega
      · have := hfar b hb
        omega
    · intro b hb
      rw [hdist]
      exact hfar b hb
  | case3 unseen a queue ha ih =>
    obtain ⟨near', far', level', hle, rfl, hfront⟩ := h.exists_front hqueue
    obtain ⟨hfar, hsorted⟩ := ih (hfront.skip ha) rfl hnodup
    refine ⟨?_, hsorted⟩
    intro b hb
    exact Nat.le_trans hle (hfar b hb)

end InLevels

/-- What a walk meets it meets once, as it strikes the node off. -/
theorem nodup_visit [DecidableEq α] {queue : List α} (hnodup : unseen.Nodup) :
    (visit next unseen queue).Nodup := by
  fun_induction visit next unseen queue with
  | case1 unseen => exact .nil
  | case2 unseen a queue ha ih =>
    refine List.nodup_cons.mpr ⟨?_, ih (hnodup.erase a)⟩
    intro hmet
    exact hnodup.not_mem_erase (mem_unseen_of_mem_visit hmet)
  | case3 unseen a queue ha ih => exact ih hnodup

end Levels

/-! ## From a node -/

variable [DecidableEq α]

/-- At the start the queue holds the neighbours of the node, and no other node has been met. -/
theorem inLevels_start {next : α → List α} {nodes : List α} (hall : ∀ a, a ∈ nodes)
    (hnodup : nodes.Nodup) (start : α) :
    InLevels next start (nodes.erase start) (next start) [] 1 where
  start_seen := hnodup.not_mem_erase
  near_steps := fun b hb => .one hb
  far_steps := fun b hb => absurd hb List.not_mem_nil
  not_nearer := by
    intro b _ n hn hsteps
    cases hsteps with
    | one => omega
    | more hc _ => cases hc <;> omega
  as_near := by
    intro b _ hsteps
    cases hsteps with
    | one hab => exact hab
    | more hc _ => cases hc
  queued := by
    intro c hc b hcb _
    have hcs : c = start := by
      by_contra hne
      exact hc ((List.mem_erase_of_ne hne).mpr (hall c))
    rw [List.append_nil]
    exact hcs ▸ hcb

theorem nearestFirst_visit {next : α → List α} {nodes : List α} (hall : ∀ a, a ∈ nodes)
    (hnodup : nodes.Nodup) (start : α) :
    NearestFirst (fun x y => y ∈ next x) start
      (visit next (nodes.erase start) (next start)) where
  nodup := nodup_visit (hnodup.erase start)
  start_notMem := fun hmet => hnodup.not_mem_erase (mem_unseen_of_mem_visit hmet)
  mem_iff := fun _ => mem_visit_iff hall hnodup
  sorted := by
    have hstart : InLevels next start (nodes.erase start) (next start) [] 1 :=
      inLevels_start hall hnodup start
    exact (hstart.pairwise_visit (List.append_nil _) (hnodup.erase start)).2

end LayeredSchema.Digraph

namespace LayeredSchema.Definition

open LayeredSchema.Digraph (NearestFirst)

variable {d : Definition} {options : OrderOptions}

/-- **The closures of a table.** What a table needs and what needs it are listed by distance:
every other table that can be reached, along cycles too, once, and the nearest first. The
table itself is in neither list, even where it lies on a cycle or refers to itself. -/
theorem closures_nearestFirst {g : Digraph (TableSlot d)} (h : d.dependencyGraph options = .ok g)
    (t : TableSlot d) :
    NearestFirst (fun u v => v ∈ g.parents u) t (g.upstream t) ∧
      NearestFirst (fun u v => v ∈ g.children u) t (g.downstream t) :=
  ⟨Digraph.nearestFirst_visit (mem_nodes h) (nodup_nodes h) t,
    Digraph.nearestFirst_visit (mem_nodes h) (nodup_nodes h) t⟩

/-- A table that refers to itself and lies on two cycles of different length. Its neighbours
share one of their own, which is declared before them and put into the queue twice. -/
def roundabout : Definition where
  schemas :=
    [{ name := "public"
       tables :=
        [{ name := "hub"
           columns :=
            [.typed "id" "int", (Column.proxy "up").references "" "hub" "id",
              (Column.proxy "east").references "" "east" "id",
              (Column.proxy "west").references "" "west" "id"] },
         { name := "rim"
           columns := [.typed "id" "int", (Column.proxy "hub").references "" "hub" "id"] },
         { name := "east"
           columns :=
            [.typed "id" "int", (Column.proxy "rim").references "" "rim" "id",
              (Column.proxy "hub").references "" "hub" "id"] },
         { name := "west"
           columns := [.typed "id" "int", (Column.proxy "rim").references "" "rim" "id"] }] }]

namespace roundabout

/-- The table at a position. -/
def place (i : Fin 4) : TableSlot roundabout := ⟨⟨0, by decide⟩, i⟩

theorem place_inj {i j : Fin 4} : place i = place j ↔ i = j := by
  constructor
  · intro h
    exact Fin.ext (congrArg (fun t : TableSlot roundabout => t.tableAt.val) h)
  · rintro rfl
    rfl

/-- The graph, with the hub at the front. -/
theorem exists_graph : ∃ g : Digraph (TableSlot roundabout),
    roundabout.dependencyGraph { allowSelfReferences := false } = .ok g ∧
      g.nodes = [place 0, place 1, place 2, place 3] ∧
      g.parents (place 0) = [place 0, place 2, place 3] ∧ g.parents (place 1) = [place 0] ∧
      g.parents (place 2) = [place 0, place 1] ∧ g.parents (place 3) = [place 1] := by
  have heval : (roundabout.dependencyGraph { allowSelfReferences := false }).toOption.map
      (fun g => (g.nodes, g.parents (place 0), g.parents (place 1), g.parents (place 2),
        g.parents (place 3))) =
      some ([place 0, place 1, place 2, place 3], [place 0, place 2, place 3], [place 0],
        [place 0, place 1], [place 1]) := by
    decide +kernel
  obtain ⟨g, hg, hgraph⟩ := Option.map_eq_some_iff.mp heval
  simp only [Prod.mk.injEq] at hgraph
  exact ⟨g, eq_ok_of_toOption hg, hgraph⟩

end roundabout

open roundabout (place) in
theorem closures_nearestFirst_roundabout :
    ∃ g : Digraph (TableSlot roundabout),
      roundabout.dependencyGraph { allowSelfReferences := false } = .ok g ∧
      (g.upstream (place 0) = [place 2, place 3, place 1] ∧
        NearestFirst (fun u v => v ∈ g.parents u) (place 0) (g.upstream (place 0))) ∧
      g.downstream (place 0) = [place 1, place 2, place 3] ∧
        NearestFirst (fun u v => v ∈ g.children u) (place 0) (g.downstream (place 0)) := by
  obtain ⟨g, h, hnodes, h0, h1, h2, h3⟩ := roundabout.exists_graph
  obtain ⟨hupstream, hdownstream⟩ := closures_nearestFirst h (place 0)
  have hup : g.upstream (place 0) = [place 2, place 3, place 1] := by
    simp [Digraph.upstream, Digraph.visit, hnodes, h0, h1, h2, h3, roundabout.place_inj]
  have hdown : g.downstream (place 0) = [place 1, place 2, place 3] := by
    simp [Digraph.downstream, Digraph.children, Digraph.visit, hnodes, h0, h1, h2, h3,
      roundabout.place_inj]
  exact ⟨g, h, ⟨hup, hupstream⟩, hdown, hdownstream⟩

end LayeredSchema.Definition
