import LayeredSchema.Proofs.Order.Dependency
import LayeredSchema.Proofs.Order.Walk
import LayeredSchema.Proofs.Reference.Key
import LayeredSchema.Proofs.Reference.Terminal
import Mathlib.Data.Finset.Dedup

/-!
# Edges are references

The edges of a dependency graph are the references that the tables declare, and nothing
else. Two things have to be shown for this. One is where references lead and how they fail:
a reference that can be followed leads to the table that it names, even if a column that it
names is inherited from another one (`Reference.names_of_target`), and one that cannot be
followed is a fault of the definition (`Reference.exists_unresolved`).

The other is that collecting them loses none. `Definition.recordEdges` goes through all
references once and enters each at both of its ends. Each entry adds one edge to what the two
maps hold (`Edges.Hold.record`), so that in the end they hold the graph and its converse
(`recordEdges_eq`).
-/

namespace LayeredSchema

variable {d : Definition} {options : OrderOptions}

/-! ## Where references lead -/

namespace Reference

/-- The schema that a reference is seen from. -/
def home : Reference d → Fin d.schemas.length
  | column c => c.owner.schemaAt
  | foreignKey t _ => t.schemaAt
  | constraint t _ => t.schemaAt

/-- The schema that a reference names. -/
def foreignSchema : Reference d → String
  | column c => c.column.foreignSchema
  | foreignKey _ fk => fk.foreignSchema
  | constraint _ c => c.foreignSchema

/-- The table that a reference names. -/
def foreignTable : Reference d → String
  | column c => c.column.foreignTable
  | foreignKey _ fk => fk.foreignTable
  | constraint _ c => c.foreignTable

/-- The names in a reference lead to a table. What parents and columns tables have does not
matter to this. -/
def Names (r : Reference d) (u : TableSlot d) : Prop :=
  ∃ s, d.schemaFrom? r.home r.foreignSchema = some s ∧ d.tableIn? s r.foreignTable = some u

theorem Names.unique {r : Reference d} {u v : TableSlot d} (hu : r.Names u) (hv : r.Names v) :
    u = v := by
  obtain ⟨s, hs, hu⟩ := hu
  obtain ⟨s', hs', hv⟩ := hv
  obtain rfl : s = s' := Option.some.inj (hs.symm.trans hs')
  exact Option.some.inj (hu.symm.trans hv)

/-- A reference leads to the table that it names. -/
theorem names_of_target {r : Reference d} {u : TableSlot d} (h : r.target = .ok u) :
    r.Names u := by
  cases r with
  | column c =>
    obtain ⟨key, hkey, rfl⟩ := map_eq_ok_iff.mp h
    obtain ⟨-, t, _, rfl, ht, -⟩ := ColumnSlot.targetKey_spec hkey
    exact Definition.findTable_eq_ok_iff.mp ht
  | foreignKey t fk =>
    obtain ⟨key, hkey, rfl⟩ := map_eq_ok_iff.mp h
    obtain ⟨-, own, hown, htarget⟩ := TableSlot.targetKey_eq_ok_iff.mp hkey
    obtain ⟨rfl, -⟩ := TableSlot.keyOver_eq_ok_iff.mp hown
    exact Definition.findTable_eq_ok_iff.mp (Key.findTable_of_targetFor htarget)
  | constraint t c => exact Definition.findTable_eq_ok_iff.mp (mapError_eq_ok_iff.mp h)

/-- A declared reference that cannot be followed is a fault of the definition. -/
theorem exists_unresolved {t : TableSlot d} {r : Reference d} (hr : t.Declares r)
    {f : ResolveFailure} (h : r.target = .error f) : ∃ e, f = .unresolved e := by
  cases hr with
  | column c hc =>
    rcases ColumnSlot.targetKey_eq_error (map_eq_error_iff.mp h) with ⟨hnone, -⟩ | ⟨e, he, -⟩
    · exact absurd hnone hc
    · exact ⟨e, he⟩
  | foreignKey _ fk => exact TableSlot.exists_unresolved_of_targetKey (map_eq_error_iff.mp h)
  | constraint _ c =>
    obtain ⟨e, -, he⟩ := mapError_eq_error_iff.mp h
    exact ⟨e, he.symm⟩

end Reference

/-! ## All references, one after another -/

/-- The tables that the references of a table lead to, in the order of the references. -/
def TableSlot.targets (t : TableSlot d) : Except ResolveFailure (List (TableSlot d)) :=
  t.references.mapM Reference.target

namespace Definition

/-- All references, in the order in which they are followed. -/
def references (d : Definition) : List (Reference d) := d.tableSlots.flatMap TableSlot.references

theorem mem_references_iff {r : Reference d} :
    r ∈ d.references ↔ ∃ t : TableSlot d, t.Declares r := by
  simp [references, mem_tableSlots, TableSlot.mem_references_iff]

theorem firstFailure_targets_iff {f : ResolveFailure} :
    FirstFailure TableSlot.targets d.tableSlots f ↔
      FirstFailure Reference.target d.references f :=
  firstFailure_flatMap.symm

/-- The graph fails as the first reference does that cannot be followed. -/
theorem dependencyGraph_eq_error_iff {f : ResolveFailure} :
    d.dependencyGraph options = .error f ↔ FirstFailure Reference.target d.references f := by
  have hedge : ∀ (t : TableSlot d) (f : ResolveFailure),
      (do return (t, ← t.dependencies options) :
          Except ResolveFailure (TableSlot d × List (TableSlot d))) = .error f ↔
        t.targets = .error f := by
    intro t f
    simp [TableSlot.dependencies, TableSlot.targets, bind_eq_error_iff, pure, Except.pure]
  rw [← firstFailure_targets_iff, ← firstFailure_congr hedge, ← mapM_eq_error_iff,
    dependencyGraph, bind_eq_error_iff]
  simp [pure, Except.pure]

end Definition

/-! ## Entering them at both ends -/

/-- The tables that each table needs, and those that need it. -/
@[ext]
structure Edges (d : Definition) where
  parents : TableSlot d → Finset (TableSlot d)
  children : TableSlot d → Finset (TableSlot d)

namespace Edges

/-- No edges. -/
def empty : Edges d := ⟨fun _ => ∅, fun _ => ∅⟩

/-- Enters at both ends that a table refers to another one. What is none of the tables is
passed over, and so is the table itself where that is allowed. -/
def record (options : OrderOptions) (t : TableSlot d) (edges : Edges d) (u : TableSlot d) :
    Edges d :=
  if !d.tableSlots.contains u then edges
  else if u = t ∧ options.allowSelfReferences then edges
  else
    { parents := Function.update edges.parents t (insert u (edges.parents t))
      children := Function.update edges.children u (insert t (edges.children u)) }

/-- Enters what the references of a table lead to, once all of them have been followed. -/
def recordTable (options : OrderOptions) (edges : Edges d) (t : TableSlot d) :
    Except ResolveFailure (Edges d) := do
  return (← t.targets).foldl (record options t) edges

/-- The two maps hold the same relation, from either end. -/
structure Hold (edges : Edges d) (needs : TableSlot d → TableSlot d → Prop) : Prop where
  parents : ∀ t u, u ∈ edges.parents t ↔ needs t u
  children : ∀ t u, t ∈ edges.children u ↔ needs t u

/-- What an entry adds to the relation. -/
def Adds (options : OrderOptions) (t u a b : TableSlot d) : Prop :=
  a = t ∧ b = u ∧ ¬ (b = a ∧ options.allowSelfReferences = true)

namespace Hold

variable {edges edges' : Edges d} {needs needs' : TableSlot d → TableSlot d → Prop}

theorem unique (h : edges.Hold needs) (h' : edges'.Hold needs) : edges = edges' := by
  ext t u
  · rw [h.parents, h'.parents]
  · rw [h.children, h'.children]

theorem congr (h : edges.Hold needs) (hneeds : ∀ t u, needs t u ↔ needs' t u) :
    edges.Hold needs' where
  parents t u := (h.parents t u).trans (hneeds t u)
  children t u := (h.children t u).trans (hneeds t u)

theorem empty : (Edges.empty : Edges d).Hold fun _ _ => False where
  parents _ _ := by simp [Edges.empty]
  children _ _ := by simp [Edges.empty]

/-- **One entry.** No table is passed over but the one itself, so that an entry adds its edge
to both maps or to neither. -/
theorem record (h : edges.Hold needs) (t u : TableSlot d) :
    (edges.record options t u).Hold fun a b => needs a b ∨ Adds options t u a b := by
  unfold Edges.record
  have hknown : d.tableSlots.contains u = true :=
    List.contains_iff_mem.mpr (Definition.mem_tableSlots u)
  rw [hknown, Bool.not_true, if_neg Bool.false_ne_true]
  split_ifs with hself
  · refine h.congr fun a b => (or_iff_left ?_).symm
    rintro ⟨rfl, rfl, hne⟩
    exact hne hself
  · have hadds : ∀ a b, Adds options t u a b ↔ a = t ∧ b = u := by
      intro a b
      refine ⟨fun hadd => ⟨hadd.1, hadd.2.1⟩, ?_⟩
      rintro ⟨rfl, rfl⟩
      exact ⟨rfl, rfl, hself⟩
    constructor
    · intro a b
      rw [hadds, ← h.parents]
      by_cases ha : a = t
      · subst ha
        simp [or_comm]
      · simp [ha]
    · intro a b
      rw [hadds, ← h.children]
      by_cases hb : b = u
      · subst hb
        simp [or_comm]
      · simp [hb]

theorem foldl_record (h : edges.Hold needs) (t : TableSlot d) (targets : List (TableSlot d)) :
    (targets.foldl (Edges.record options t) edges).Hold fun a b =>
      needs a b ∨ ∃ u ∈ targets, Adds options t u a b := by
  induction targets generalizing edges needs with
  | nil => exact h.congr fun a b => by simp
  | cons u targets ih =>
    refine (ih (h.record t u)).congr fun a b => ?_
    rw [List.exists_mem_cons_iff, or_assoc]

/-- **The entries of one table.** -/
theorem recordTable {t : TableSlot d} (h : edges.Hold needs)
    (hpass : edges.recordTable options t = .ok edges') : edges'.Hold fun a b =>
      needs a b ∨ ∃ r ∈ t.references, ∃ u, r.target = .ok u ∧ Adds options t u a b := by
  obtain ⟨targets, htargets, hedges⟩ := bind_eq_ok_iff.mp hpass
  obtain rfl : targets.foldl (Edges.record options t) edges = edges' := Except.ok.inj hedges
  refine (h.foldl_record t targets).congr fun a b => or_congr_right ?_
  simp only [mem_of_mapM_eq_ok htargets]
  tauto

/-- **The pass.** It adds what the references of the tables add that it has met. -/
theorem foldlM_recordTable {tables : List (TableSlot d)} (h : edges.Hold needs)
    (hpass : tables.foldlM (Edges.recordTable options) edges = .ok edges') :
    edges'.Hold fun a b => needs a b ∨
      ∃ t ∈ tables, ∃ r ∈ t.references, ∃ u, r.target = .ok u ∧ Adds options t u a b := by
  induction tables generalizing edges needs with
  | nil =>
    obtain rfl : edges = edges' := Except.ok.inj hpass
    exact h.congr fun a b => by simp
  | cons t tables ih =>
    rw [List.foldlM_cons] at hpass
    obtain ⟨between, hfirst, hrest⟩ := bind_eq_ok_iff.mp hpass
    refine (ih (h.recordTable hfirst) hrest).congr fun a b => ?_
    rw [List.exists_mem_cons_iff, or_assoc]

end Hold

end Edges

/-- The parents and the children of a graph. -/
def Digraph.edges (g : Digraph (TableSlot d)) : Edges d where
  parents t := (g.parents t).toFinset
  children t := (g.children t).toFinset

namespace Definition

/-- The edges of all tables, collected in one pass. -/
def recordEdges (d : Definition) (options : OrderOptions) : Except ResolveFailure (Edges d) :=
  d.tableSlots.foldlM (Edges.recordTable options) Edges.empty

theorem hold_edges {g : Digraph (TableSlot d)} (h : d.dependencyGraph options = .ok g) :
    g.edges.Hold g.Needs where
  parents t u := List.mem_toFinset
  children t u := by
    rw [Digraph.edges, List.mem_toFinset, Digraph.mem_children_iff (mem_nodes h)]

/-- A pass that gets to the end has collected the edges of the graph. -/
theorem hold_recordEdges {g : Digraph (TableSlot d)} (h : d.dependencyGraph options = .ok g)
    {edges : Edges d} (hpass : d.recordEdges options = .ok edges) : edges.Hold g.Needs := by
  refine (Edges.Hold.empty.foldlM_recordTable hpass).congr fun t u => ?_
  rw [needs_iff h, false_or]
  constructor
  · intro hadds
    obtain ⟨_, -, r, hr, _, hu, rfl, rfl, hself⟩ := hadds
    exact ⟨⟨r, TableSlot.mem_references_iff.mp hr, hu⟩, hself⟩
  · intro hneeds
    obtain ⟨⟨r, hr, hu⟩, hself⟩ := hneeds
    exact ⟨t, mem_tableSlots t, r, TableSlot.mem_references_iff.mpr hr, u, hu, rfl, rfl, hself⟩

theorem recordEdges_eq_error_iff {f : ResolveFailure} :
    d.recordEdges options = .error f ↔ d.dependencyGraph options = .error f := by
  rw [dependencyGraph_eq_error_iff, ← firstFailure_targets_iff]
  exact foldlM_eq_error_iff

/-- **Collecting the edges.** The pass collects the edges of the graph, or fails as it does. -/
theorem recordEdges_eq : d.recordEdges options = (d.dependencyGraph options).map Digraph.edges := by
  cases h : d.dependencyGraph options with
  | error f => exact recordEdges_eq_error_iff.mpr h
  | ok g =>
    have hpass : ∃ edges, d.recordEdges options = .ok edges := by
      refine exists_ok_iff.mpr fun f hf => ?_
      rw [recordEdges_eq_error_iff, h] at hf
      cases hf
    obtain ⟨edges, hedges⟩ := hpass
    rw [hedges, (hold_recordEdges h hedges).unique (hold_edges h)]
    rfl

/-! ## What the edges are -/

/-- The edges of a graph are the references of its tables. -/
structure EdgesAreReferences (options : OrderOptions) (g : Digraph (TableSlot d)) : Prop where
  nodes : g.nodes = d.tableSlots
  parents : ∀ t u, u ∈ g.parents t ↔
    (∃ r, t.Declares r ∧ r.target = .ok u) ∧ ¬ (u = t ∧ options.allowSelfReferences = true)
  children : ∀ t u, t ∈ g.children u ↔ u ∈ g.parents t
  /-- No reference is lost. -/
  targets : ∀ (t : TableSlot d) (r : Reference d), t.Declares r →
    ∃ u ∈ g.nodes, r.target = .ok u
  /-- Where a reference leads is in its names alone. -/
  names : ∀ (t : TableSlot d) (r : Reference d) (u : TableSlot d), t.Declares r →
    (r.target = .ok u ↔ r.Names u)
  /-- Inheritance adds no edge, so that a reference must name the table inherited from. -/
  inheritance : ∀ t u, t.parent = .ok u → u ∈ g.parents t → ∃ r, t.Declares r ∧ r.Names u

theorem edgesAreReferences {g : Digraph (TableSlot d)} (h : d.dependencyGraph options = .ok g) :
    EdgesAreReferences options g where
  nodes := (dependencyGraph_spec h).1
  parents _ _ := needs_iff h
  children _ _ := Digraph.mem_children_iff (mem_nodes h)
  targets t r hr := by
    obtain ⟨u, hu⟩ := exists_target h hr
    exact ⟨u, mem_nodes h u, hu⟩
  names t r u hr := by
    refine ⟨Reference.names_of_target, fun hnames => ?_⟩
    obtain ⟨v, hv⟩ := exists_target h hr
    rwa [hnames.unique (Reference.names_of_target hv)]
  inheritance t u _ hu := by
    obtain ⟨⟨r, hr, htarget⟩, -⟩ := (needs_iff h).mp hu
    exact ⟨r, hr, Reference.names_of_target htarget⟩

/-- **The graph is exact.** Building it fails if some reference cannot be followed, and then as
the first of these does, which is always a fault of the definition. Otherwise its edges are the
references, and they are what one pass over the references collects at both ends. -/
theorem dependencyGraph_exact (d : Definition) (options : OrderOptions) :
    ((∃ f, d.dependencyGraph options = .error f) ↔
      ∃ (t : TableSlot d) (r : Reference d), t.Declares r ∧ ∃ f, r.target = .error f) ∧
    (∀ f, d.dependencyGraph options = .error f →
      FirstFailure Reference.target d.references f ∧ ∃ e, f = .unresolved e) ∧
    (∀ g, d.dependencyGraph options = .ok g → EdgesAreReferences options g) ∧
    d.recordEdges options = (d.dependencyGraph options).map Digraph.edges := by
  have hfails : ∀ f, d.dependencyGraph options = .error f →
      ∃ (t : TableSlot d) (r : Reference d), t.Declares r ∧ r.target = .error f := by
    intro f hf
    obtain ⟨before, r, after, hsplit, -, hr⟩ := dependencyGraph_eq_error_iff.mp hf
    obtain ⟨t, ht⟩ := mem_references_iff.mp (hsplit ▸ List.mem_append_cons_self)
    exact ⟨t, r, ht, hr⟩
  refine ⟨⟨?_, ?_⟩, ?_, fun g => edgesAreReferences, recordEdges_eq⟩
  · intro hf
    obtain ⟨f, hf⟩ := hf
    obtain ⟨t, r, hr, htarget⟩ := hfails f hf
    exact ⟨t, r, hr, f, htarget⟩
  · intro hr
    obtain ⟨t, r, hr, f, hf⟩ := hr
    by_contra hnone
    obtain ⟨g, hg⟩ := exists_ok_iff.mpr (not_exists.mp hnone)
    obtain ⟨u, hu⟩ := exists_target hg hr
    rw [hf] at hu
    cases hu
  · intro f hf
    obtain ⟨t, r, hr, htarget⟩ := hfails f hf
    exact ⟨dependencyGraph_eq_error_iff.mp hf, Reference.exists_unresolved hr htarget⟩

/-- Transfers that refer to each other, twice to savings by a column that savings inherit from
accounts, and to an entry. -/
def bank : Definition where
  schemas :=
    [{ name := "public"
       tables :=
        [{ name := "accounts", columns := [.typed "id" "int"] },
         { name := "savings", parentTable := "accounts" },
         { name := "transfers"
           columns :=
            [.typed "number" "int", (Column.proxy "previous").references "" "transfers" "number",
              (Column.proxy "source").references "" "savings" "id"]
           foreignKeys :=
            [{ columns := ["source"], foreignTable := "SAVINGS", foreignColumns := ["id"] }]
           constraints :=
            [{ name := "audited", kind := .foreignKey
               foreignSchema := "audit", foreignTable := "entries" }] }] },
     { name := "audit", tables := [{ name := "entries" }] }]

/-- The table at a position of the first schema. -/
def bank.place (i : Fin 3) : TableSlot bank := ⟨⟨0, by decide⟩, i⟩

/-- The table of the other schema. -/
def bank.entries : TableSlot bank := ⟨⟨1, by decide⟩, ⟨0, by decide⟩⟩

/-- A constraint, a foreign key and a column that lead nowhere, the column in a later table. -/
def strayed : Definition where
  schemas :=
    [{ name := "public"
       tables :=
        [{ name := "orders"
           columns := [.typed "id" "int", (Column.proxy "parent").references "" "orders" "id"]
           foreignKeys := [{ columns := ["buyer"], foreignTable := "orders", name := "bought" }]
           constraints := [{ name := "kept", kind := .foreignKey, foreignTable := "missing" }] },
         { name := "items", columns := [(Column.proxy "order").references "" "order" "id"] }] }]

/-- The failure of the foreign key, which is followed before the constraint. -/
def strayed.failure : ResolveFailure :=
  .unresolved (.unknownColumn "public.orders (bought)" "public" "orders" "buyer")

theorem dependencyGraph_exact_bank :
    (∃ g, bank.dependencyGraph {} = .ok g ∧ EdgesAreReferences {} g ∧
      g.parents (bank.place 2) = [bank.place 1, bank.entries] ∧ g.parents (bank.place 1) = [] ∧
      (bank.place 1).parent = .ok (bank.place 0) ∧ bank.recordEdges {} = .ok g.edges) ∧
    strayed.dependencyGraph {} = .error strayed.failure ∧
    FirstFailure Reference.target strayed.references strayed.failure := by
  refine ⟨?_, ?_⟩
  · have heval : (bank.dependencyGraph {}).toOption.map
        (fun g => (g.parents (bank.place 2), g.parents (bank.place 1))) =
        some ([bank.place 1, bank.entries], []) := by
      decide +kernel
    obtain ⟨g, hg, hparents⟩ := Option.map_eq_some_iff.mp heval
    obtain ⟨htransfers, hsavings⟩ := Prod.mk.inj hparents
    have hgraph := eq_ok_of_toOption hg
    obtain ⟨-, -, hexact, hpass⟩ := dependencyGraph_exact bank {}
    rw [hgraph] at hpass
    exact ⟨g, hgraph, hexact g hgraph, htransfers, hsavings, by decide +kernel, hpass⟩
  · have heval : (strayed.dependencyGraph {}).map (fun _ => ()) = .error strayed.failure := by
      decide +kernel
    have hfails := map_eq_error_iff.mp heval
    exact ⟨hfails, ((dependencyGraph_exact strayed {}).2.1 _ hfails).1⟩

end Definition

end LayeredSchema
