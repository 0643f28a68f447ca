import LayeredSchema.Proofs.Order.Dependency

/-!
# The creation order of tables

What the two outcomes of ordering mean for a definition. An order that is found
lists every table once and puts it after every other table that a reference of
it leads to (`creationOrder_topological`): this is what lets tables be created
one after another. An order is refused exactly if the dependencies run in a
circle, and the refusal names the tables that stand in the way and no others
(`creationOrder_cycle_iff`).

Tables are slots here: two tables of one name in one schema are two nodes, and
a reference by that name leads to the first of them.
-/

namespace LayeredSchema.Definition

open Relation (TransGen)

variable {d : Definition} {options : OrderOptions}

/-! ## When there is an order -/

/-- An order lists every slot of the definition exactly once. -/
theorem count_creationOrder {order : List (TableSlot d)}
    (h : d.creationOrder options = .ok order) (t : TableSlot d) : order.count t = 1 := by
  obtain ⟨g, hg, horder⟩ := creationOrder_eq_ok_iff.mp h
  rw [(Digraph.order_perm horder).count_eq, (dependencyGraph_spec hg).1]
  exact List.count_eq_one_of_mem (nodup_tableSlots d) (mem_tableSlots t)

/-- **The order respects every reference.** All tables stand in it, each once,
and whatever a table refers to can be resolved and is the table itself or stands
before it. -/
theorem creationOrder_topological {order : List (TableSlot d)}
    (h : d.creationOrder options = .ok order) :
    (∀ t : TableSlot d, order.count t = 1) ∧
    ∀ (t : TableSlot d) (r : Reference d), t.Declares r →
      ∃ u, r.target = .ok u ∧ (u = t ∨ order.idxOf u < order.idxOf t) := by
  refine ⟨count_creationOrder h, fun t r hr => ?_⟩
  obtain ⟨g, hg, horder⟩ := creationOrder_eq_ok_iff.mp h
  obtain ⟨u, hu⟩ := exists_target hg hr
  refine ⟨u, hu, ?_⟩
  by_cases hut : u = t
  · exact .inl hut
  · have hneeds : g.Needs t u := (needs_iff hg).mpr ⟨⟨r, hr, hu⟩, fun hself => hut hself.1⟩
    exact .inr (Digraph.order_respects horder (mem_nodes hg t) (mem_nodes hg u) hneeds)

/-- References of all three kinds, across schemas, in another case, to the table
itself and to the first of two tables of one name. -/
def bookshop : Definition where
  schemas :=
    [{ name := "sales"
       tables :=
        [{ name := "orders"
           columns :=
            [.typed "id" "int", (Column.proxy "parent").references "" "orders" "id",
              (Column.proxy "book").references "STOCK" "Books" "isbn"]
           foreignKeys := [{ columns := ["id"], foreignTable := "customers", name := "buyer" }] },
         { name := "customers", columns := [.typed "id" "int"] },
         { name := "Customers"
           constraints := [{ name := "vip", kind := .foreignKey, foreignTable := "orders" }] }] },
     { name := "stock", tables := [{ name := "books", columns := [.typed "isbn" "text"] }] }]

theorem creationOrder_topological_bookshop :
    ∃ order : List (TableSlot bookshop), bookshop.creationOrder {} = .ok order ∧
      order.map TableSlot.qualifiedName =
        ["sales.customers", "stock.books", "sales.orders", "sales.Customers"] ∧
      (∀ t : TableSlot bookshop, order.count t = 1) ∧
      ∀ (t : TableSlot bookshop) (r : Reference bookshop), t.Declares r →
        ∃ u, r.target = .ok u ∧ (u = t ∨ order.idxOf u < order.idxOf t) := by
  have heval : (bookshop.creationOrder {}).toOption.map (·.map TableSlot.qualifiedName) =
      some ["sales.customers", "stock.books", "sales.orders", "sales.Customers"] := by
    decide +kernel
  obtain ⟨order, horder, hnames⟩ := Option.map_eq_some_iff.mp heval
  have h := eq_ok_of_toOption horder
  exact ⟨order, h, hnames, creationOrder_topological h⟩

/-! ## When there is none -/

/-- **Refusals.** Ordering is refused exactly if some table depends on itself,
directly or not. The refusal then names, in discovery order and each once, the
tables that lead to such a cycle, and the rounds have taken all others. -/
theorem creationOrder_cycle_iff {g : Digraph (TableSlot d)}
    (h : d.dependencyGraph options = .ok g) :
    ((∃ names, g.creationOrder = .error (.cycle names)) ↔ ∃ t, TransGen g.Needs t t) ∧
    ∀ names, g.creationOrder = .error (.cycle names) →
      (∃ left : List (TableSlot d), names = left.map TableSlot.qualifiedName ∧
        left.Sublist d.tableSlots ∧ left.Nodup ∧ ∀ t, t ∈ left ↔ g.LeadsToCycle t) ∧
      ∀ t, t ∈ g.schedule.rounds.flatten ↔ ¬ g.LeadsToCycle t := by
  have hclosed := closed_dependencyGraph h
  have hstuck : ∀ t, t ∈ g.schedule.stuck ↔ g.LeadsToCycle t := fun t =>
    Digraph.mem_stuck_iff hclosed (mem_nodes h t)
  constructor
  · constructor
    · intro hrefused
      obtain ⟨names, hnames⟩ := hrefused
      obtain ⟨hne, -⟩ := Digraph.creationOrder_eq_error_iff.mp hnames
      obtain ⟨t, ht⟩ := List.exists_mem_of_ne_nil _ hne
      obtain ⟨u, -, hu⟩ := (hstuck t).mp ht
      exact ⟨u, hu⟩
    · intro hcycle
      obtain ⟨t, ht⟩ := hcycle
      refine ⟨_, Digraph.creationOrder_eq_error_iff.mpr ⟨?_, rfl⟩⟩
      exact List.ne_nil_of_mem ((hstuck t).mpr (Digraph.leadsToCycle_of_onCycle ht))
  · intro names hnames
    obtain ⟨-, hcycle⟩ := Digraph.creationOrder_eq_error_iff.mp hnames
    have hsub : g.schedule.stuck.Sublist d.tableSlots := by
      rw [← (dependencyGraph_spec h).1]
      exact Digraph.stuck_sublist g g.nodes
    refine ⟨⟨g.schedule.stuck, ?_, hsub, hsub.nodup (nodup_tableSlots d), hstuck⟩, fun t => ?_⟩
    · exact OrderError.cycle.inj hcycle
    · exact Digraph.mem_rounds_iff hclosed (nodup_nodes h) (mem_nodes h t)

/-- Two tables that need each other, one that needs the first of them, one that
needs itself, and one that needs nothing. -/
def knot : Definition where
  schemas :=
    [{ name := "public"
       tables :=
        [{ name := "late", columns := [(Column.proxy "a").references "" "a" "id"] },
         { name := "free" },
         { name := "a", columns := [.typed "id" "int", (Column.proxy "b").references "" "B" "id"] },
         { name := "b", columns := [.typed "id" "int", (Column.proxy "a").references "" "A" "id"] },
         { name := "self"
           columns := [.typed "id" "int", (Column.proxy "up").references "" "self" "id"] }] }]

theorem creationOrder_cycle_iff_knot :
    ∃ g : Digraph (TableSlot knot),
      knot.dependencyGraph { allowSelfReferences := false } = .ok g ∧
      g.creationOrder = .error (.cycle ["public.late", "public.a", "public.b", "public.self"]) ∧
      (∃ t, TransGen g.Needs t t) ∧
      ∀ t, t ∈ g.schedule.rounds.flatten ↔ ¬ g.LeadsToCycle t := by
  have hbuilt : (knot.dependencyGraph { allowSelfReferences := false }).toOption.isSome = true := by
    decide +kernel
  obtain ⟨g, hg⟩ := Option.isSome_iff_exists.mp hbuilt
  have h := eq_ok_of_toOption hg
  -- a graph has no decidable equality, but what it leaves can be evaluated
  have hstuck : ((knot.dependencyGraph { allowSelfReferences := false }).toOption.map fun g =>
      g.schedule.stuck.map TableSlot.qualifiedName) =
        some ["public.late", "public.a", "public.b", "public.self"] := by
    decide +kernel
  rw [hg, Option.map_some, Option.some.injEq] at hstuck
  have herror : g.creationOrder =
      .error (.cycle ["public.late", "public.a", "public.b", "public.self"]) := by
    refine Digraph.creationOrder_eq_error_iff.mpr ⟨fun hnil => ?_, by rw [hstuck]⟩
    rw [hnil] at hstuck
    exact absurd hstuck (by decide)
  obtain ⟨hiff, hnames⟩ := creationOrder_cycle_iff h
  exact ⟨g, h, herror, hiff.mp ⟨_, herror⟩, (hnames _ herror).2⟩

end LayeredSchema.Definition
