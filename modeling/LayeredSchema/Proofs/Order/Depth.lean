import LayeredSchema.Proofs.Order.Dependency
import Mathlib.Order.Lattice.Nat

/-!
# The order is sorted by depth

The rounds of a graph without cycles can be told beforehand. The `depth` of a node is the
length of the longest chain of dependencies that starts at it, and round after round takes
the nodes of depth zero, one, two and so on, in the order in which the graph lists them
(`rounds_eq_layers`). So the order that comes out is sorted by depth and then by position,
and nothing else about the graph has a part in it (`canonical_order`).

What a round does to the nodes that remain says it all: when those are the nodes of some depth
or more, the ready ones are those of just that depth (`ready_deeper`), since a deeper node has
a parent that is only one less deep and still remains. No other way to put nodes after those
that they need has an earlier place for any of them (`depth_le`).
-/

namespace LayeredSchema

open Relation (TransGen)

namespace Digraph

variable {α : Type}

/-! ## Depth -/

/-- A chain of so many dependencies starts at a node. -/
inductive ChainFrom (g : Digraph α) : Nat → α → Prop
  | stop (a : α) : ChainFrom g 0 a
  | step {n : Nat} {a b : α} (hab : g.Needs a b) (hb : ChainFrom g n b) : ChainFrom g (n + 1) a

/-- The length of a longest chain of dependencies from a node, in graphs in which chains from
it cannot be arbitrarily long. -/
noncomputable def depth (g : Digraph α) (a : α) : Nat := sSup {n | g.ChainFrom n a}

/-- Each node has its round, and comes after those that it needs. -/
def Layering (g : Digraph α) (round : α → Nat) : Prop := ∀ a b, g.Needs a b → round b < round a

variable {g : Digraph α} {a b : α}

/-- A chain takes one round for each of its dependencies. -/
theorem ChainFrom.le_round {round : α → Nat} (hround : g.Layering round) {n : Nat}
    (h : g.ChainFrom n a) : n ≤ round a := by
  induction h with
  | stop => exact Nat.zero_le _
  | step hab _ ih => exact Nat.succ_le_of_lt (ih.trans_lt (hround _ _ hab))

section Depth

variable {round : α → Nat} (hround : g.Layering round)
include hround

theorem isGreatest_depth (a : α) : IsGreatest {n | g.ChainFrom n a} (g.depth a) := by
  have hbounded : BddAbove {n | g.ChainFrom n a} := ⟨round a, fun _ hn => hn.le_round hround⟩
  exact ⟨Nat.sSup_mem ⟨0, .stop a⟩ hbounded, fun _ hn => le_csSup hbounded hn⟩

/-- **No earlier round.** Whatever has nodes come after those that they need has each of them
no earlier than its depth says. -/
theorem depth_le (a : α) : g.depth a ≤ round a :=
  (isGreatest_depth hround a).1.le_round hround

theorem depth_lt_of_needs (hab : g.Needs a b) : g.depth b < g.depth a :=
  (isGreatest_depth hround a).2 (ChainFrom.step hab (isGreatest_depth hround b).1)

/-- Below a node that is not at depth zero there is one that is one less deep. -/
theorem exists_needs_of_depth {n : Nat} (h : g.depth a = n + 1) :
    ∃ b, g.Needs a b ∧ g.depth b = n := by
  have hchain : g.ChainFrom (n + 1) a := h ▸ (isGreatest_depth hround a).1
  cases hchain with
  | @step _ _ b hab hb =>
    refine ⟨b, hab, Nat.le_antisymm ?_ ((isGreatest_depth hround b).2 hb)⟩
    have hlt := depth_lt_of_needs hround hab
    omega

theorem depth_eq_zero_iff : g.depth a = 0 ↔ g.parents a = [] := by
  constructor
  · intro hzero
    refine List.eq_nil_iff_forall_not_mem.mpr fun b hab => ?_
    have hlt : g.depth b < g.depth a := depth_lt_of_needs hround hab
    omega
  · intro hnone
    cases hdepth : g.depth a with
    | zero => rfl
    | succ n =>
      obtain ⟨b, hab, -⟩ := exists_needs_of_depth hround hdepth
      rw [Needs, hnone] at hab
      exact absurd hab List.not_mem_nil

end Depth

/-! ## Rounds -/

/-- The nodes of one depth. -/
noncomputable def layer (g : Digraph α) (n : Nat) : List α :=
  g.nodes.filter fun a => g.depth a = n

/-- The nodes of some depth or more. -/
noncomputable def deeper (g : Digraph α) (n : Nat) : List α :=
  g.nodes.filter fun a => n ≤ g.depth a

theorem mem_layer_iff {n : Nat} : a ∈ g.layer n ↔ a ∈ g.nodes ∧ g.depth a = n := by
  simp [layer]

variable {round : α → Nat}

theorem layer_zero (hround : g.Layering round) :
    g.layer 0 = g.nodes.filter fun a => g.parents a = [] := by
  refine List.filter_congr fun a _ => ?_
  rw [decide_eq_decide, depth_eq_zero_iff hround]

variable [DecidableEq α]

section Rounds

variable (hall : ∀ a, a ∈ g.nodes) (hround : g.Layering round)
include hall hround

theorem mem_ready_deeper_iff {n : Nat} : a ∈ g.ready (g.deeper n) ↔ g.depth a = n := by
  have hdeeper : ∀ b, b ∈ g.deeper n ↔ n ≤ g.depth b := by
    intro b
    simp [deeper, hall b]
  rw [mem_ready, hdeeper]
  constructor
  · intro h
    obtain ⟨hle, hnone⟩ := h
    by_contra hne
    -- a deeper node waits for one that is one less deep, and so still deep enough to remain
    obtain ⟨m, hm⟩ := Nat.exists_eq_add_of_lt (Nat.lt_of_le_of_ne hle (Ne.symm hne))
    obtain ⟨b, hab, hb⟩ := exists_needs_of_depth hround hm
    exact hnone b hab ((hdeeper b).mpr (by omega))
  · intro h
    refine ⟨Nat.le_of_eq h.symm, fun b hab hb => ?_⟩
    have hlt := depth_lt_of_needs hround hab
    have hle := (hdeeper b).mp hb
    omega

/-- **One round.** Of the nodes from some depth on it takes those of that depth, -/
theorem ready_deeper (n : Nat) : g.ready (g.deeper n) = g.layer n := by
  rw [ready_eq_filter]
  simp only [mem_ready_deeper_iff hall hround]
  rw [deeper, layer, List.filter_filter]
  refine List.filter_congr fun a _ => ?_
  rw [Bool.eq_iff_iff, Bool.and_eq_true, decide_eq_true_iff, decide_eq_true_iff]
  omega

/-- and leaves those that are deeper. -/
theorem unready_deeper (n : Nat) : g.unready (g.deeper n) = g.deeper (n + 1) := by
  unfold unready
  simp only [mem_ready_deeper_iff hall hround]
  rw [deeper, deeper, List.filter_filter]
  refine List.filter_congr fun a _ => ?_
  rw [Bool.eq_iff_iff, Bool.and_eq_true, decide_eq_true_iff, decide_eq_true_iff,
    decide_eq_true_iff]
  omega

theorem rounds_peel_deeper (n : Nat) :
    (g.peel (g.deeper n)).rounds =
      (List.range' n (g.peel (g.deeper n)).rounds.length).map g.layer := by
  -- by the recursion of the rounds: what remains is always what is deep enough
  generalize hremaining : g.deeper n = remaining
  induction remaining using peel.induct g generalizing n with
  | case1 remaining h =>
    rw [peel_of_ready_nil h]
    rfl
  | case2 remaining h ih =>
    subst hremaining
    rw [rounds_of_ready h, List.length_cons, List.range'_succ, List.map_cons,
      ready_deeper hall hround]
    exact congrArg _ (ih (n + 1) (unready_deeper hall hround n).symm)

/-- **All rounds.** There is one for each depth, the smallest first. -/
theorem rounds_eq_layers :
    g.schedule.rounds = (List.range g.schedule.rounds.length).map g.layer := by
  have hdeeper : g.deeper 0 = g.nodes := by simp [deeper]
  have hrounds := rounds_peel_deeper hall hround 0
  rwa [hdeeper, ← List.range_eq_range'] at hrounds

end Rounds

/-! ## The order -/

/-- One node is less deep than another one or, where they are equally deep, listed before it. -/
def Earlier (g : Digraph α) (a b : α) : Prop :=
  g.depth a < g.depth b ∨ g.depth a = g.depth b ∧ g.nodes.idxOf a < g.nodes.idxOf b

/-- What the order of a graph has to do with its depths. -/
structure Canonical (g : Digraph α) (order : List α) : Prop where
  perm : order.Perm g.nodes
  sorted : order.Pairwise g.Earlier
  /-- What needs nothing comes first, as it is listed. -/
  roots_first : g.nodes.filter (fun a => g.parents a = []) <+: order
  /-- Each round takes the nodes of one depth. -/
  rounds : ∀ n, g.schedule.rounds.getD n [] = g.layer n
  order_eq : order = g.schedule.rounds.flatten

/-- Without a cycle the places in an order are rounds. -/
theorem exists_layering (hall : ∀ a, a ∈ g.nodes) (hacyclic : ∀ a, ¬ TransGen g.Needs a a) :
    ∃ order round, g.order = .ok order ∧ g.Layering round := by
  have hstuck : g.schedule.stuck = [] := by
    by_contra hne
    obtain ⟨a, ha⟩ := (stuck_ne_nil_iff hall).mp hne
    exact hacyclic a ha
  have horder : g.order = .ok _ := order_eq_ok_iff.mpr ⟨hstuck, rfl⟩
  exact ⟨_, _, horder, fun a b hab => order_respects horder (hall a) (hall b) hab⟩

theorem pairwise_idxOf {l : List α} (hnodup : l.Nodup) :
    l.Pairwise fun a b => l.idxOf a < l.idxOf b := by
  rw [List.pairwise_iff_getElem]
  intro i j hi hj hij
  rwa [hnodup.idxOf_getElem i hi, hnodup.idxOf_getElem j hj]

/-- Within one round the nodes stand as they are listed. -/
theorem pairwise_layer (hnodup : g.nodes.Nodup) (n : Nat) : (g.layer n).Pairwise g.Earlier := by
  refine ((pairwise_idxOf hnodup).filter _).imp_of_mem fun ha hb hlt => .inr ⟨?_, hlt⟩
  rw [(mem_layer_iff.mp ha).2, (mem_layer_iff.mp hb).2]

section Order

variable (hall : ∀ a, a ∈ g.nodes) (hround : g.Layering round)
include hall hround

theorem mem_flatten_rounds_iff : a ∈ g.schedule.rounds.flatten ↔
    g.depth a < g.schedule.rounds.length := by
  rw [rounds_eq_layers hall hround, ← List.flatMap_def, List.mem_flatMap]
  simp [mem_layer_iff, hall a]

/-- Later rounds hold deeper nodes. -/
theorem pairwise_rounds (hnodup : g.nodes.Nodup) :
    g.schedule.rounds.flatten.Pairwise g.Earlier := by
  rw [rounds_eq_layers hall hround, ← List.flatMap_def, List.pairwise_flatMap]
  refine ⟨fun n _ => pairwise_layer hnodup n, ?_⟩
  refine List.pairwise_lt_range.imp fun hlt a ha b hb => .inl ?_
  rwa [(mem_layer_iff.mp ha).2, (mem_layer_iff.mp hb).2]

/-- A round takes the nodes of its depth, and a round that there is not would take none. -/
theorem getD_rounds (hstuck : g.schedule.stuck = []) (n : Nat) :
    g.schedule.rounds.getD n [] = g.layer n := by
  by_cases hn : n < g.schedule.rounds.length
  · rw [rounds_eq_layers hall hround]
    simp [hn]
  · rw [List.getD_eq_getElem?_getD, List.getElem?_eq_none (Nat.le_of_not_lt hn),
      Option.getD_none, eq_comm, List.eq_nil_iff_forall_not_mem]
    intro a ha
    -- nothing is left, so that every node has had its round before
    have hmem : a ∈ g.schedule.rounds.flatten :=
      (mem_rounds_or_mem_stuck.mpr (hall a)).resolve_right (hstuck ▸ List.not_mem_nil)
    have hlt := (mem_flatten_rounds_iff hall hround).mp hmem
    exact hn ((mem_layer_iff.mp ha).2 ▸ hlt)

/-- **The order is canonical.** -/
theorem canonical_order (hnodup : g.nodes.Nodup) {order : List α} (h : g.order = .ok order) :
    g.Canonical order := by
  obtain ⟨hstuck, rfl⟩ := order_eq_ok_iff.mp h
  have hrounds := getD_rounds hall hround hstuck
  refine ⟨order_perm h, pairwise_rounds hall hround hnodup, ?_, hrounds, rfl⟩
  rw [← layer_zero hround, ← hrounds 0]
  cases g.schedule.rounds with
  | nil => exact List.nil_prefix
  | cons first rest => exact List.prefix_append first rest.flatten

end Order

end Digraph

/-! ## The graph of a definition -/

namespace Definition

variable {d : Definition} {options : OrderOptions}

/-- **The creation order is canonical.** Tables without cycles are created sorted by the length
of the longest chain of dependencies from each, and then as they are declared. That length is
the first round that the dependencies of a table allow. -/
theorem creationOrder_canonical {g : Digraph (TableSlot d)}
    (h : d.dependencyGraph options = .ok g) (hacyclic : ∀ t, ¬ TransGen g.Needs t t) :
    g.nodes = d.tableSlots ∧
    (∀ t, IsGreatest {n | g.ChainFrom n t} (g.depth t)) ∧
    (∃ order, g.creationOrder = .ok order ∧ g.Canonical order) ∧
    g.Layering g.depth ∧
    ∀ round : TableSlot d → Nat, g.Layering round → ∀ t, g.depth t ≤ round t := by
  obtain ⟨order, round, horder, hround⟩ := Digraph.exists_layering (mem_nodes h) hacyclic
  refine ⟨(dependencyGraph_spec h).1, Digraph.isGreatest_depth hround, ⟨order, ?_, ?_⟩, ?_, ?_⟩
  · exact Digraph.creationOrder_eq_ok_iff.mpr horder
  · exact Digraph.canonical_order (mem_nodes h) hround (nodup_nodes h) horder
  · exact fun t u htu => Digraph.depth_lt_of_needs hround htu
  · exact fun _ hround' => Digraph.depth_le hround'

/-- Crates that need fields directly, and also rows and pickers, which need fields as well. The
fields are declared after all of these, and refer to themselves. -/
def harvest : Definition where
  schemas :=
    [{ name := "public"
       tables :=
        [{ name := "crates"
           columns :=
            [(Column.proxy "field").references "" "fields" "id",
              (Column.proxy "row").references "" "rows" "id",
              (Column.proxy "picker").references "" "pickers" "id"] },
         { name := "pickers"
           columns := [.typed "id" "int", (Column.proxy "field").references "" "fields" "id"] },
         { name := "rows"
           columns := [.typed "id" "int", .typed "field" "int"]
           foreignKeys :=
            [{ columns := ["field"], foreignTable := "FIELDS", foreignColumns := ["id"] }] },
         { name := "fields"
           columns :=
            [.typed "id" "int", (Column.proxy "beside").references "" "fields" "id"] }] },
     { name := "store"
       tables :=
        [{ name := "tools" },
         { name := "labels"
           constraints :=
            [{ name := "packed", kind := .foreignKey
               foreignSchema := "public", foreignTable := "crates" }] }] }]

theorem creationOrder_canonical_harvest :
    ∃ (g : Digraph (TableSlot harvest)) (order : List (TableSlot harvest)),
      harvest.dependencyGraph {} = .ok g ∧ (∀ t, ¬ TransGen g.Needs t t) ∧
      g.creationOrder = .ok order ∧ g.Canonical order ∧
      order.map TableSlot.qualifiedName =
        ["public.fields", "store.tools", "public.pickers", "public.rows", "public.crates",
          "store.labels"] := by
  have heval : ((harvest.dependencyGraph {}).toOption.map fun g =>
      (g.schedule.stuck, g.schedule.rounds.flatten.map TableSlot.qualifiedName)) =
      some ([], ["public.fields", "store.tools", "public.pickers", "public.rows",
        "public.crates", "store.labels"]) := by
    decide +kernel
  obtain ⟨g, hg, hgraph⟩ := Option.map_eq_some_iff.mp heval
  obtain ⟨hstuck, hnames⟩ := Prod.mk.inj hgraph
  have h := eq_ok_of_toOption hg
  have hacyclic : ∀ t, ¬ TransGen g.Needs t t := fun t ht =>
    (Digraph.stuck_ne_nil_iff (mem_nodes h)).mpr ⟨t, ht⟩ hstuck
  obtain ⟨-, -, ⟨order, horder, hcanonical⟩, -, -⟩ := creationOrder_canonical h hacyclic
  exact ⟨g, order, h, hacyclic, horder, hcanonical, hcanonical.order_eq ▸ hnames⟩

end Definition

end LayeredSchema
