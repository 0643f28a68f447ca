import LayeredSchema.Proofs.Order.Numbered

/-!
# Tables by number

`Definition.numberedGraph` builds the dependency graph of a definition by numbers: each table has
the number of its place among all tables, and a pass over the references enters each at both of
its ends. The pass on the tables themselves, `Definition.recordEdges`, takes the same steps, and
so the two fail alike or come to the same edges (`Numbered.Collects.foldlM_recordTable`). What is
read from the one is what the graph answers, and no number is out of range (`Numbered.Answers`,
`Definition.alike_numberedGraph`).
-/

namespace LayeredSchema

/-! ## Computations in step -/

/-- Two computations fail alike, or have related results. -/
inductive Alike {ε α β : Type} (R : α → β → Prop) : Except ε α → Except ε β → Prop where
  | ok {a : α} {b : β} (h : R a b) : Alike R (.ok a) (.ok b)
  | error (e : ε) : Alike R (.error e) (.error e)

namespace Alike

variable {ε α β γ δ : Type} {R : α → β → Prop} {S : γ → δ → Prop} {x : Except ε α}
  {y : Except ε β}

theorem refl (x : Except ε α) : Alike Eq x x := by
  cases x with
  | ok a => exact .ok rfl
  | error e => exact .error e

theorem bind {f : α → Except ε γ} {g : β → Except ε δ} (h : Alike R x y)
    (hrest : ∀ a b, R a b → Alike S (f a) (g b)) : Alike S (x >>= f) (y >>= g) := by
  cases h with
  | ok h => exact hrest _ _ h
  | error e => exact .error e

/-- The second computation without a function that is applied to its result. -/
theorem of_map {f : δ → β} {z : Except ε δ} {S : α → δ → Prop} (h : Alike R x (z.map f))
    (himp : ∀ a c, z = .ok c → R a (f c) → S a c) : Alike S x z := by
  cases z with
  | ok c =>
    cases h with
    | ok h => exact .ok (himp _ c rfl h)
  | error e =>
    cases h with
    | error => exact .error e

end Alike

/-! ## Tables by number -/

variable {d : Definition} {options : OrderOptions}

namespace Numbered

/-- Tables without edges. -/
def blank (d : Definition) : Numbered (TableSlot d) where
  nodes := d.tableSlots
  parents := .blank d.tableSlots.length
  children := .blank d.tableSlots.length

/-- Enters at both ends that the table with a number refers to another one. What is none of the
tables is passed over, and so is the table itself where that is allowed. -/
def record (options : OrderOptions) (id : Nat) (n : Numbered (TableSlot d)) (u : TableSlot d) :
    Numbered (TableSlot d) :=
  match n.nodes.idxOf? u with
  | none => n
  | some other =>
    if other = id ∧ options.allowSelfReferences then n
    else { n with parents := n.parents.enter id other, children := n.children.enter other id }

/-- Enters what the references of a table lead to, once all of them have been followed. -/
def recordTable (options : OrderOptions) (n : Numbered (TableSlot d)) (entry : TableSlot d × Nat) :
    Except ResolveFailure (Numbered (TableSlot d)) := do
  return (← entry.1.targets).foldl (record options entry.2) n

/-- The order in which tables can be created. -/
def creationOrder (n : Numbered (TableSlot d)) :
    Except OutOfRange (Except OrderError (List (TableSlot d))) := do
  return (← n.order).mapError fun stuck => .cycle (stuck.map TableSlot.qualifiedName)

/-- The order in which tables can be dropped. -/
def dropOrder (n : Numbered (TableSlot d)) :
    Except OutOfRange (Except OrderError (List (TableSlot d))) := do
  return (← n.creationOrder).map List.reverse

/-- The two maps hold what has been collected on the tables themselves. -/
structure Collects (n : Numbered (TableSlot d)) (edges : Edges d) : Prop where
  nodes : n.nodes = d.tableSlots
  parents : n.parents.Hold d.tableSlots fun t => some (edges.parents t)
  children : n.children.Hold d.tableSlots fun t => some (edges.children t)

namespace Collects

variable {n : Numbered (TableSlot d)} {edges : Edges d}

theorem blank : (Numbered.blank d).Collects Edges.empty where
  nodes := rfl
  parents := .blank Definition.mem_tableSlots
  children := .blank Definition.mem_tableSlots

/-- **One edge.** -/
theorem record (h : n.Collects edges) (t u : TableSlot d) :
    (n.record options (d.tableSlots.idxOf t) u).Collects (edges.record options t u) := by
  have hall := Definition.mem_tableSlots (d := d)
  have hself : d.tableSlots.idxOf u = d.tableSlots.idxOf t ↔ u = t :=
    (idxOf_injective hall).eq_iff
  unfold Numbered.record Edges.record
  rw [h.nodes, idxOf?_of_mem (hall u), List.contains_iff_mem.mpr (hall u), Bool.not_true,
    if_neg Bool.false_ne_true]
  simp only [hself]
  split
  next => exact h
  next => exact ⟨rfl, h.parents.enter hall t u, h.children.enter hall u t⟩

theorem foldl_record (h : n.Collects edges) (t : TableSlot d) (targets : List (TableSlot d)) :
    (targets.foldl (Numbered.record options (d.tableSlots.idxOf t)) n).Collects
      (targets.foldl (Edges.record options t) edges) := by
  induction targets generalizing n edges with
  | nil => exact h
  | cons u targets ih => exact ih (h.record t u)

/-- **One table.** -/
theorem recordTable (h : n.Collects edges) (t : TableSlot d) :
    Alike Collects (n.recordTable options (t, d.tableSlots.idxOf t))
      (edges.recordTable options t) := by
  refine (Alike.refl t.targets).bind fun targets _ heq => ?_
  subst heq
  exact .ok (h.foldl_record t targets)

/-- **All tables.** -/
theorem foldlM_recordTable {tables : List (TableSlot d)} (h : n.Collects edges) :
    Alike Collects
      ((tables.map fun t => (t, d.tableSlots.idxOf t)).foldlM (Numbered.recordTable options) n)
      (tables.foldlM (Edges.recordTable options) edges) := by
  induction tables generalizing n edges with
  | nil => exact .ok h
  | cons t tables ih =>
    rw [List.map_cons, List.foldlM_cons, List.foldlM_cons]
    exact (h.recordTable t).bind fun n edges => ih

end Collects

/-- What is stored is in range, and each answer that is read by number is that of the graph. -/
structure Answers (n : Numbered (TableSlot d)) (g : Digraph (TableSlot d)) : Prop where
  parents_below : n.parents.Below n.nodes.length
  children_below : n.children.Below n.nodes.length
  parents : ∀ t, n.neighbours n.parents t = .ok (g.parents t)
  children : ∀ t, n.neighbours n.children t = .ok (g.children t)
  upstream : ∀ t, n.closure n.parents t = .ok (g.upstream t)
  downstream : ∀ t, n.closure n.children t = .ok (g.downstream t)
  creationOrder : n.creationOrder = .ok g.creationOrder
  dropOrder : n.dropOrder = .ok g.dropOrder

theorem Numbers.answers {n : Numbered (TableSlot d)} {g : Digraph (TableSlot d)}
    (hall : ∀ t, t ∈ g.nodes) (hnodup : g.nodes.Nodup)
    (hparents : ∀ t, (g.parents t).Sublist g.nodes) (h : n.Numbers g) : n.Answers g := by
  have hchildren : ∀ t, (g.children t).Sublist g.nodes := fun t => List.filter_sublist
  have hcreation : n.creationOrder = .ok g.creationOrder := by
    rw [creationOrder, order_eq hall hnodup h]
    rfl
  obtain ⟨nodes, parents, children⟩ := n
  obtain rfl : nodes = g.nodes := h.nodes
  exact
    { parents_below := h.parents.below hall hnodup
      children_below := h.children.below hall hnodup
      parents := neighbours_eq hall hnodup hparents h.parents
      children := neighbours_eq hall hnodup hchildren h.children
      upstream := closure_eq hall hnodup hparents h.parents
      downstream := closure_eq hall hnodup hchildren h.children
      creationOrder := hcreation
      dropOrder := by rw [dropOrder, hcreation]; rfl }

end Numbered

namespace Definition

/-- The tables of a definition with their dependencies, by number. -/
def numberedGraph (d : Definition) (options : OrderOptions) :
    Except ResolveFailure (Numbered (TableSlot d)) :=
  d.tableSlots.zipIdx.foldlM (Numbered.recordTable options) (Numbered.blank d)

/-- The parents in a graph stand in the order of all tables. -/
theorem parents_sublist {g : Digraph (TableSlot d)} (h : d.dependencyGraph options = .ok g)
    (t : TableSlot d) : (g.parents t).Sublist g.nodes := by
  obtain ⟨hnodes, hdeps⟩ := dependencyGraph_spec h
  obtain ⟨targets, -, hparents⟩ := TableSlot.dependencies_eq_ok_iff.mp (hdeps t)
  rw [hnodes, hparents]
  exact List.filter_sublist

/-- **The graph by number.** It fails as the graph does, or answers as that does. -/
theorem alike_numberedGraph (d : Definition) (options : OrderOptions) :
    Alike Numbered.Answers (d.numberedGraph options) (d.dependencyGraph options) := by
  have hpass : Alike Numbered.Collects (d.numberedGraph options) (d.recordEdges options) := by
    rw [numberedGraph, zipIdx_eq_map_idxOf (nodup_tableSlots d)]
    exact Numbered.Collects.blank.foldlM_recordTable
  rw [recordEdges_eq] at hpass
  refine hpass.of_map fun n g hgraph h => ?_
  have hnodes := (dependencyGraph_spec hgraph).1
  have hnumbers : n.Numbers g :=
    ⟨h.nodes.trans hnodes.symm, hnodes ▸ h.parents, hnodes ▸ h.children⟩
  exact hnumbers.answers (mem_nodes hgraph) (nodup_nodes hgraph) (parents_sublist hgraph)

end Definition

end LayeredSchema
