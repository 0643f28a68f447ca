/-!
# Directed graphs

A graph in which every node needs its *parents*. `upstream` is everything that a node needs,
directly or not, and `downstream` everything that needs it; both list the nearest first and
leave out the node itself, even when it lies on a cycle. `schedule` peels the graph in rounds:
a round takes every node whose parents have all been taken, in the order of the nodes. What
no round can take is `stuck`: each such node needs another one.
-/

namespace LayeredSchema

/-- A finite directed graph. The parents of a node are nodes themselves. -/
structure Digraph (α : Type) where
  nodes : List α
  parents : α → List α

namespace Digraph

variable {α : Type} [DecidableEq α]

/-- The nodes that need a node directly, in the order of the nodes. -/
def children (g : Digraph α) (a : α) : List α := g.nodes.filter fun b => a ∈ g.parents b

/-- The nodes met from a queue, going on from each to its neighbours at the end of the queue;
`unseen` are the nodes that may still be met. -/
def visit (next : α → List α) (unseen : List α) : (queue : List α) → List α
  | [] => []
  | a :: queue =>
    if a ∈ unseen then a :: visit next (unseen.erase a) (queue ++ next a)
    else visit next unseen queue
termination_by queue => (unseen.length, queue.length)
decreasing_by
  · rename_i h
    have := List.length_erase_of_mem h
    have := List.length_pos_of_mem h
    exact Prod.Lex.left _ _ (by omega)
  · exact Prod.Lex.right _ (by simp)

/-- Everything that a node needs, the nearest first. -/
def upstream (g : Digraph α) (a : α) : List α :=
  visit g.parents (g.nodes.erase a) (g.parents a)

/-- Everything that needs a node, the nearest first. -/
def downstream (g : Digraph α) (a : α) : List α :=
  visit g.children (g.nodes.erase a) (g.children a)

/-- The nodes in rounds, and those that never had their turn. -/
structure Schedule (α : Type) where
  rounds : List (List α)
  stuck : List α

/-- The nodes of which no parent remains. -/
def ready (g : Digraph α) (remaining : List α) : List α :=
  remaining.filter fun a => (g.parents a).all fun b => b ∉ remaining

/-- The nodes that are not ready. -/
def unready (g : Digraph α) (remaining : List α) : List α :=
  remaining.filter fun a => a ∉ g.ready remaining

theorem length_unready_lt {g : Digraph α} {remaining : List α} (h : g.ready remaining ≠ []) :
    (g.unready remaining).length < remaining.length := by
  obtain ⟨a, ha⟩ := List.exists_mem_of_ne_nil _ h
  exact List.length_filter_lt_length_iff_exists.2
    ⟨a, (List.mem_filter.1 ha).1, by simpa using ha⟩

/-- Takes rounds from the nodes that remain until no node is ready. -/
def peel (g : Digraph α) (remaining : List α) : Schedule α :=
  if g.ready remaining = [] then ⟨[], remaining⟩
  else
    let rest := g.peel (g.unready remaining)
    { rest with rounds := g.ready remaining :: rest.rounds }
termination_by remaining.length
decreasing_by exact length_unready_lt (by assumption)

/-- All nodes in rounds. -/
def schedule (g : Digraph α) : Schedule α := g.peel g.nodes

/-- The nodes in an order in which each comes after its parents, or those that no such order
can place. -/
def order (g : Digraph α) : Except (List α) (List α) :=
  if g.schedule.stuck = [] then .ok g.schedule.rounds.flatten else .error g.schedule.stuck

end Digraph

end LayeredSchema
