import LayeredSchema.Order.Dependency
import LayeredSchema.Proofs.Order.Peel
import LayeredSchema.Proofs.Reference.Slot
import LayeredSchema.Proofs.Traversal

/-!
# The dependency graph of a definition

What `Definition.dependencyGraph` builds, for later files to reason about
without opening it. Its nodes are all tables, each of them once
(`nodup_tableSlots`), and one table needs another one exactly if some reference
of the first leads to the second, references from a table to itself left out
where the options allow them (`needs_iff`). Building it succeeds only if every
reference leads somewhere (`exists_target`).
-/

namespace LayeredSchema

variable {d : Definition} {options : OrderOptions}

/-! ## References -/

namespace TableSlot

/-- What counts as a reference of a table: a column that names a foreign table,
a foreign key of the table, and a constraint that demands a foreign key and
names a table. -/
inductive Declares : TableSlot d → Reference d → Prop where
  | column (c : ColumnSlot d) (h : c.column.foreignTable ≠ "") : Declares c.owner (.column c)
  | foreignKey (t : TableSlot d) (fk : ForeignKey) (h : fk ∈ t.table.foreignKeys) :
      Declares t (.foreignKey t fk)
  | constraint (t : TableSlot d) (c : Constraint) (h : c ∈ t.table.constraints)
      (hkind : c.kind = .foreignKey) (htable : c.foreignTable ≠ "") :
      Declares t (.constraint t c)

theorem mem_references_iff {t : TableSlot d} {r : Reference d} :
    r ∈ t.references ↔ t.Declares r := by
  simp only [references, List.mem_append, List.mem_map, List.mem_filter]
  constructor
  · intro h
    rcases h with (⟨c, ⟨hc, hfk⟩, rfl⟩ | ⟨fk, hfk, rfl⟩) | ⟨c, ⟨hc, href⟩, rfl⟩
    · obtain ⟨i, -, rfl⟩ := List.mem_map.mp hc
      exact .column ⟨t, i⟩ (by simpa [Column.hasForeignKey] using hfk)
    · exact .foreignKey t fk hfk
    · simp only [Constraint.referencesTable, Bool.and_eq_true, beq_iff_eq, bne_iff_ne] at href
      exact .constraint t c hc href.1 href.2
  · intro h
    cases h with
    | column c hc =>
      refine .inl (.inl ⟨c, ⟨?_, by simpa [Column.hasForeignKey] using hc⟩, rfl⟩)
      exact List.mem_map.mpr ⟨c.columnAt, List.mem_finRange _, rfl⟩
    | foreignKey _ fk hfk => exact .inl (.inr ⟨fk, hfk, rfl⟩)
    | constraint _ c hc hkind htable =>
      exact .inr ⟨c, ⟨hc, by simp [Constraint.referencesTable, hkind, htable]⟩, rfl⟩

theorem dependencies_eq_ok_iff {t : TableSlot d} {deps : List (TableSlot d)} :
    t.dependencies options = .ok deps ↔
      ∃ targets, t.references.mapM Reference.target = .ok targets ∧
        deps = d.tableSlots.filter fun u =>
          u ∈ targets && !(u == t && options.allowSelfReferences) := by
  unfold dependencies
  rw [bind_eq_ok_iff]
  simp [pure, Except.pure, eq_comm]

end TableSlot

/-! ## The graph -/

namespace Definition

/-- A graph that could be built has all tables as its nodes, and the
dependencies of each table as its parents. -/
theorem dependencyGraph_spec {g : Digraph (TableSlot d)}
    (h : d.dependencyGraph options = .ok g) :
    g.nodes = d.tableSlots ∧
      ∀ t : TableSlot d, t.dependencies options = .ok (g.parents t) := by
  unfold dependencyGraph at h
  obtain ⟨edges, hedges, hg⟩ := bind_eq_ok_iff.mp h
  obtain rfl : _ = g := by simpa only [pure, Except.pure, Except.ok.injEq] using hg
  refine ⟨rfl, fun t => ?_⟩
  obtain ⟨deps, hdeps, hlook⟩ := lookup_of_mapM_eq_ok hedges t (mem_tableSlots t)
  rw [hdeps]
  simp only [hlook, Option.getD_some]

/-- Every reference of a graph that could be built leads to a table. -/
theorem exists_target {g : Digraph (TableSlot d)} (h : d.dependencyGraph options = .ok g)
    {t : TableSlot d} {r : Reference d} (hr : t.Declares r) : ∃ u, r.target = .ok u := by
  have hdeps := (dependencyGraph_spec h).2 t
  obtain ⟨targets, htargets, -⟩ := TableSlot.dependencies_eq_ok_iff.mp hdeps
  obtain ⟨u, -, hu⟩ := exists_of_mapM_eq_ok htargets r (TableSlot.mem_references_iff.mpr hr)
  exact ⟨u, hu⟩

/-- **When there is a graph.** It can be built exactly if every reference leads somewhere. -/
theorem exists_dependencyGraph_iff :
    (∃ g, d.dependencyGraph options = .ok g) ↔
      ∀ (t : TableSlot d) (r : Reference d), t.Declares r → ∃ u, r.target = .ok u := by
  constructor
  · intro hbuilt t r hr
    obtain ⟨g, hg⟩ := hbuilt
    exact exists_target hg hr
  · intro hall
    have hdeps : ∀ t ∈ d.tableSlots, ∃ edge : TableSlot d × List (TableSlot d),
        (do return (t, ← t.dependencies options)) = Except.ok edge := by
      intro t _
      obtain ⟨targets, htargets⟩ := exists_forall₂ fun r hr =>
        hall t r (TableSlot.mem_references_iff.mp hr)
      have hdeps : ∃ deps, t.dependencies options = .ok deps :=
        ⟨_, TableSlot.dependencies_eq_ok_iff.mpr ⟨targets, mapM_eq_ok_iff.mpr htargets, rfl⟩⟩
      obtain ⟨deps, hdeps⟩ := hdeps
      exact ⟨(t, deps), bind_eq_ok_iff.mpr ⟨deps, hdeps, rfl⟩⟩
    obtain ⟨edges, hedges⟩ := exists_forall₂ hdeps
    exact ⟨_, bind_eq_ok_iff.mpr ⟨edges, mapM_eq_ok_iff.mpr hedges, rfl⟩⟩

/-- **The edges of the graph.** One table needs another one exactly if some
reference of it leads there, itself excepted where that is allowed. -/
theorem needs_iff {g : Digraph (TableSlot d)} (h : d.dependencyGraph options = .ok g)
    {t u : TableSlot d} :
    g.Needs t u ↔ (∃ r, t.Declares r ∧ r.target = .ok u) ∧
      ¬ (u = t ∧ options.allowSelfReferences = true) := by
  have hdeps := (dependencyGraph_spec h).2 t
  obtain ⟨targets, htargets, hparents⟩ := TableSlot.dependencies_eq_ok_iff.mp hdeps
  simp only [← TableSlot.mem_references_iff]
  rw [Digraph.Needs, hparents, List.mem_filter, ← mem_of_mapM_eq_ok htargets]
  simp [mem_tableSlots, imp_iff_not_or]

theorem closed_dependencyGraph {g : Digraph (TableSlot d)}
    (h : d.dependencyGraph options = .ok g) : g.Closed := by
  intro t _ u _
  rw [(dependencyGraph_spec h).1]
  exact mem_tableSlots u

theorem nodup_nodes {g : Digraph (TableSlot d)} (h : d.dependencyGraph options = .ok g) :
    g.nodes.Nodup := by
  rw [(dependencyGraph_spec h).1]
  exact nodup_tableSlots d

theorem mem_nodes {g : Digraph (TableSlot d)} (h : d.dependencyGraph options = .ok g)
    (t : TableSlot d) : t ∈ g.nodes := by
  rw [(dependencyGraph_spec h).1]
  exact mem_tableSlots t

end Definition

/-! ## The two outcomes of ordering -/

namespace Digraph

theorem creationOrder_eq_ok_iff {g : Digraph (TableSlot d)} {order : List (TableSlot d)} :
    g.creationOrder = .ok order ↔ g.order = .ok order :=
  mapError_eq_ok_iff

/-- Ordering fails only for a cycle, and names what no round could take. -/
theorem creationOrder_eq_error_iff {g : Digraph (TableSlot d)} {e : OrderError} :
    g.creationOrder = .error e ↔
      g.schedule.stuck ≠ [] ∧ e = .cycle (g.schedule.stuck.map TableSlot.qualifiedName) := by
  unfold creationOrder
  cases horder : g.order with
  | ok order =>
    obtain ⟨hstuck, -⟩ := order_eq_ok_iff.mp horder
    simp [Except.mapError, hstuck]
  | error stuck =>
    obtain ⟨hne, rfl⟩ := order_eq_error_iff.mp horder
    simp [Except.mapError, hne, eq_comm]

end Digraph

namespace Definition

theorem creationOrder_eq_ok_iff {order : List (TableSlot d)} :
    d.creationOrder options = .ok order ↔
      ∃ g, d.dependencyGraph options = .ok g ∧ g.order = .ok order := by
  unfold creationOrder
  rw [bind_eq_ok_iff]
  simp only [mapError_eq_ok_iff, Digraph.creationOrder_eq_ok_iff]

end Definition

end LayeredSchema
