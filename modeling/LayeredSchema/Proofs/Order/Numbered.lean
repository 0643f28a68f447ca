import LayeredSchema.Proofs.Access
import LayeredSchema.Proofs.Order.Depth
import LayeredSchema.Proofs.Order.Recording
import Mathlib.Data.Finmap
import Mathlib.Data.Finset.Sort

/-!
# Graphs by number

A graph may be kept by numbers: the nodes in a list, and for the place of each node in it the set
of the places of its parents, and of its children. Then every answer has to be read back from the
list, and a number that is out of range is an error that the graph on the nodes themselves does
not know. This file has such graphs (`Numbered`), with reads that fail, and shows that none does
where the maps hold a graph (`Numbered.Numbers`): each answer is that of `Digraph`
(`Numbered.neighbours_eq`, `closure_eq` and `order_eq`).

What a map holds is described by its lookups alone (`Links.Hold`), at first for all nodes and,
while an order is made, for those that remain. A round takes numbers out of the map and out of
the sets of their children. That this leaves to each node that remains the parents that remain
takes the maps to be converse to each other (`Links.Hold.foldl_settle`).
-/

namespace LayeredSchema

/-- A set of numbers for each of some numbers. -/
abbrev Links := Finmap fun _ : Nat => Finset Nat

namespace Links

/-- The set of a number, empty where there is none. -/
def linked (links : Links) (i : Nat) : Finset Nat := (links.lookup i).getD ∅

/-- Enters a number into the set of another one, which is made if there is none. -/
def enter (links : Links) (i j : Nat) : Links := links.insert i (insert j (links.linked i))

/-- Takes a number out of the set of another one, if there is one. -/
def strike (gone : Nat) (links : Links) (i : Nat) : Links :=
  match links.lookup i with
  | none => links
  | some set => links.insert i (set.erase gone)

/-- An empty set for each number below a bound. -/
def blank : Nat → Links
  | 0 => ∅
  | n + 1 => (blank n).insert n ∅

/-- The numbers with empty sets, in ascending order. -/
def ready (remaining : Links) : List Nat :=
  (remaining.keys.filter fun i => remaining.lookup i = some ∅).sort

/-- Takes out a number, and takes it out of the sets of those that it is linked to. -/
def settle (children remaining : Links) (i : Nat) : Links :=
  (children.linked i).sort.foldl (strike i) (remaining.erase i)

/-! ## Lookups -/

theorem lookup_enter (links : Links) (i j k : Nat) :
    (links.enter i j).lookup k =
      if k = i then some (insert j (links.linked i)) else links.lookup k := by
  unfold enter
  split
  next h => rw [h, Finmap.lookup_insert]
  next h => rw [Finmap.lookup_insert_of_ne _ h]

theorem lookup_strike (gone : Nat) (links : Links) (i k : Nat) :
    (strike gone links i).lookup k =
      if k = i then (links.lookup k).map (·.erase gone) else links.lookup k := by
  unfold strike
  by_cases hk : k = i
  · rw [if_pos hk, hk]
    cases hset : links.lookup i with
    | none => exact hset
    | some set => rw [Finmap.lookup_insert, Option.map_some]
  · rw [if_neg hk]
    cases links.lookup i with
    | none => rfl
    | some set => rw [Finmap.lookup_insert_of_ne _ hk]

theorem lookup_foldl_strike (gone : Nat) (links : Links) (js : List Nat) (k : Nat) :
    (js.foldl (strike gone) links).lookup k =
      if k ∈ js then (links.lookup k).map (·.erase gone) else links.lookup k := by
  induction js generalizing links with
  | nil => simp
  | cons j js ih =>
    rw [List.foldl_cons, ih, lookup_strike]
    by_cases hj : k = j
    · -- a number that is struck off twice is gone after the first time
      simp [hj, Function.comp_def]
    · simp [hj]

theorem lookup_blank (n k : Nat) : (blank n).lookup k = if k < n then some ∅ else none := by
  induction n with
  | zero => simp [blank]
  | succ n ih =>
    unfold blank
    by_cases hk : k = n
    · rw [hk, Finmap.lookup_insert, if_pos (Nat.lt_succ_self n)]
    · rw [Finmap.lookup_insert_of_ne _ hk, ih]
      congr 1
      exact propext (by omega)

theorem lookup_settle (children remaining : Links) (i k : Nat) :
    (settle children remaining i).lookup k =
      if k = i then none
      else if k ∈ children.linked i then (remaining.lookup k).map (·.erase i)
      else remaining.lookup k := by
  unfold settle
  rw [lookup_foldl_strike]
  simp only [Finset.mem_sort]
  by_cases hk : k = i
  · subst hk
    rw [if_pos rfl, Finmap.lookup_erase]
    split_ifs <;> rfl
  · rw [if_neg hk, Finmap.lookup_erase_ne hk]

theorem mem_keys_iff {links : Links} {i : Nat} : i ∈ links.keys ↔ (links.lookup i).isSome := by
  rw [Finmap.mem_keys, Finmap.lookup_isSome]

theorem keys_enter (links : Links) (i j : Nat) :
    (links.enter i j).keys = insert i links.keys := by
  ext k
  rw [Finset.mem_insert, mem_keys_iff, mem_keys_iff, lookup_enter]
  split
  next h => simp [h]
  next h => simp [h]

theorem keys_settle (children remaining : Links) (i : Nat) :
    (settle children remaining i).keys = remaining.keys.erase i := by
  ext k
  rw [Finset.mem_erase, mem_keys_iff, mem_keys_iff, lookup_settle]
  split_ifs with hk hlinked
  · simp [hk]
  · simp [hk]
  · simp [hk]

theorem keys_foldl_settle (children remaining : Links) (ids : List Nat) :
    (ids.foldl (settle children) remaining).keys = remaining.keys \ ids.toFinset := by
  induction ids generalizing remaining with
  | nil => simp
  | cons i ids ih =>
    rw [List.foldl_cons, ih, keys_settle, List.toFinset_cons, Finset.sdiff_insert,
      Finset.erase_sdiff_comm]

theorem mem_ready_iff {remaining : Links} {i : Nat} :
    i ∈ remaining.ready ↔ remaining.lookup i = some ∅ := by
  rw [ready, Finset.mem_sort, Finset.mem_filter, mem_keys_iff, and_iff_right_iff_imp]
  intro h
  rw [h]
  rfl

/-- A round that takes something leaves fewer numbers. -/
theorem card_keys_round_lt {children remaining : Links} (h : remaining.ready ≠ []) :
    (remaining.ready.foldl (settle children) remaining).keys.card < remaining.keys.card := by
  have hkeys : remaining.ready.toFinset ⊆ remaining.keys := by
    intro i hi
    rw [mem_keys_iff, mem_ready_iff.mp (List.mem_toFinset.mp hi)]
    rfl
  rw [keys_foldl_settle]
  refine Finset.card_lt_card (Finset.sdiff_ssubset hkeys ?_)
  rwa [List.toFinset_nonempty_iff]

end Links

/-! ## Places -/

variable {α : Type} [DecidableEq α] {nodes l : List α}

/-- The places of some nodes, read back. -/
theorem mapM_readAt_idxOf (h : ∀ a ∈ l, a ∈ nodes) :
    (l.map nodes.idxOf).mapM (readAt nodes) = .ok l := by
  rw [mapM_eq_ok_iff, List.forall₂_map_left_iff, List.forall₂_same]
  intro a ha
  exact readAt_eq_ok_iff.mpr (List.getElem?_idxOf (h a ha))

/-- Nodes that stand in the order of all nodes have places in ascending order. -/
theorem sort_image_idxOf (hnodup : nodes.Nodup) (hl : l.Sublist nodes) :
    (l.toFinset.image nodes.idxOf).sort = l.map nodes.idxOf := by
  have hascending : (l.map nodes.idxOf).Pairwise (· < ·) :=
    List.pairwise_map.mpr ((Digraph.pairwise_idxOf hnodup).sublist hl)
  have himage : l.toFinset.image nodes.idxOf = (l.map nodes.idxOf).toFinset := by
    ext i
    simp
  rw [himage]
  refine (List.toFinset_sort _ ?_).mpr (hascending.imp Nat.le_of_lt)
  exact hascending.imp Nat.ne_of_lt

theorem idxOf_injective (hall : ∀ a, a ∈ nodes) : Function.Injective nodes.idxOf :=
  fun a _ h => (List.idxOf_inj (hall a)).mp h

theorem idxOf?_of_mem {a : α} (h : a ∈ nodes) : nodes.idxOf? a = some (nodes.idxOf a) := by
  obtain ⟨i, hi⟩ := Option.isSome_iff_exists.mp (List.isSome_idxOf?.mpr h)
  rw [List.idxOf_eq_getD_idxOf?, hi, Option.getD_some]

/-- Without repetitions, the number that goes with an element is its place. -/
theorem zipIdx_eq_map_idxOf (hnodup : nodes.Nodup) :
    nodes.zipIdx = nodes.map fun a => (a, nodes.idxOf a) := by
  refine List.ext_getElem (by simp) fun i hi _ => ?_
  rw [List.getElem_zipIdx, List.getElem_map, hnodup.idxOf_getElem, Nat.zero_add]

/-! ## What a map holds -/

namespace Links

/-- The map has a set for the place of each node that is related to some, the places of these,
and none for any other number. -/
structure Hold (links : Links) (nodes : List α) (related : α → Option (Finset α)) : Prop where
  lookup : ∀ a, links.lookup (nodes.idxOf a) = (related a).map (Finset.image nodes.idxOf)
  lt_length : ∀ i ∈ links.keys, i < nodes.length

/-- The numbers that have sets, and those in the sets, are below a bound. -/
def Below (links : Links) (bound : Nat) : Prop :=
  ∀ i ∈ links.keys, i < bound ∧ ∀ j ∈ links.linked i, j < bound

namespace Hold

variable {links : Links} {related : α → Option (Finset α)} (h : links.Hold nodes related)
include h

theorem linked (a : α) : links.linked (nodes.idxOf a) =
    ((related a).getD ∅).image nodes.idxOf := by
  rw [Links.linked, h.lookup]
  cases related a with
  | none => rfl
  | some set => rfl

/-- A number with a set is the place of a node. -/
theorem exists_of_mem_keys (hnodup : nodes.Nodup) {i : Nat} (hi : i ∈ links.keys) :
    ∃ a, i = nodes.idxOf a :=
  have hlt := h.lt_length i hi
  ⟨nodes[i], (hnodup.idxOf_getElem i hlt).symm⟩

/-- All that is stored is the place of a node. -/
theorem below (hall : ∀ a, a ∈ nodes) (hnodup : nodes.Nodup) : links.Below nodes.length := by
  intro i hi
  refine ⟨h.lt_length i hi, fun j hj => ?_⟩
  obtain ⟨a, rfl⟩ := h.exists_of_mem_keys hnodup hi
  rw [h.linked] at hj
  obtain ⟨b, -, rfl⟩ := Finset.mem_image.mp hj
  exact List.idxOf_lt_length_of_mem (hall b)

end Hold

theorem Hold.blank (hall : ∀ a, a ∈ nodes) :
    (Links.blank nodes.length).Hold nodes fun _ => some ∅ where
  lookup a := by
    rw [lookup_blank, if_pos (List.idxOf_lt_length_of_mem (hall a))]
    rfl
  lt_length i hi := by
    rw [mem_keys_iff, lookup_blank, Option.isSome_ite] at hi
    exact hi

/-- An entry by number is the entry of the node that has the number. -/
theorem Hold.enter {links : Links} {related : α → Finset α} (hall : ∀ a, a ∈ nodes)
    (h : links.Hold nodes fun a => some (related a)) (a b : α) :
    (links.enter (nodes.idxOf a) (nodes.idxOf b)).Hold nodes fun c =>
      some (Function.update related a (insert b (related a)) c) where
  lookup c := by
    rw [lookup_enter]
    by_cases hc : c = a
    · subst hc
      rw [if_pos rfl, Function.update_self, h.linked, Option.getD_some, Option.map_some,
        Finset.image_insert]
    · rw [if_neg fun hsame => hc (idxOf_injective hall hsame), Function.update_of_ne hc, h.lookup]
  lt_length i hi := by
    rw [keys_enter, Finset.mem_insert] at hi
    rcases hi with rfl | hi
    · exact List.idxOf_lt_length_of_mem (hall a)
    · exact h.lt_length i hi

end Links

/-! ## Answers by number -/

/-- A graph by numbers. -/
structure Numbered (α : Type) where
  nodes : List α
  parents : Links
  children : Links

namespace Numbered

/-- The nodes with the given numbers. -/
def read (n : Numbered α) (ids : List Nat) : Except OutOfRange (List α) :=
  ids.mapM (readAt n.nodes)

/-- The nodes that a node is linked to, none for one that is not in the graph. -/
def neighbours (n : Numbered α) (links : Links) (a : α) : Except OutOfRange (List α) :=
  match n.nodes.idxOf? a with
  | none => .ok []
  | some i => n.read (links.linked i).sort

/-- The numbers met from a queue, going on from each to those that it is linked to and that
have not been met, at the end of the queue. -/
def meet (links : Links) (start : Nat) (met : Finset Nat) : (queue : List Nat) → List Nat
  | [] => []
  | i :: queue =>
    if i = start ∨ i ∈ met then meet links start met queue
    else
      i :: meet links start (insert i met)
        (queue ++ (links.linked i).sort.filter fun j => j ∉ insert i met)
termination_by queue => ((links.keys \ met).card, queue.length)
decreasing_by
  · exact Prod.Lex.right _ (Nat.lt_succ_self _)
  · rename_i hmet
    by_cases hi : i ∈ links.keys
    · refine Prod.Lex.left _ _ (Finset.card_lt_card ?_)
      rw [Finset.sdiff_insert]
      exact Finset.erase_ssubset (Finset.mem_sdiff.mpr ⟨hi, fun h => hmet (.inr h)⟩)
    · -- a number without a set adds nothing to the queue
      have hnone : links.linked i = ∅ := by
        rw [Links.mem_keys_iff, Option.not_isSome_iff_eq_none] at hi
        rw [Links.linked, hi, Option.getD_none]
      rw [Finset.sdiff_insert, Finset.erase_eq_of_notMem fun h => hi (Finset.mem_sdiff.mp h).1,
        hnone]
      exact Prod.Lex.right _ (by simp)

/-- All nodes that links lead to from a node, the nearest first. -/
def closure (n : Numbered α) (links : Links) (a : α) : Except OutOfRange (List α) :=
  match n.nodes.idxOf? a with
  | none => .ok []
  | some i => n.read (meet links i ∅ (links.linked i).sort)

/-- Takes rounds from the numbers that remain, after those that have been taken. If none of
them is ready, they are the answer instead. -/
def orderFrom (n : Numbered α) (remaining : Links) (taken : List α) :
    Except OutOfRange (Except (List α) (List α)) :=
  if remaining.keys = ∅ then .ok (.ok taken)
  else if remaining.ready = [] then do return .error (← n.read remaining.keys.sort)
  else do
    let round ← n.read remaining.ready
    n.orderFrom (remaining.ready.foldl (Links.settle n.children) remaining) (taken ++ round)
termination_by remaining.keys.card
decreasing_by exact Links.card_keys_round_lt (by assumption)

/-- The nodes in an order in which each comes after its parents. -/
def order (n : Numbered α) : Except OutOfRange (Except (List α) (List α)) :=
  n.orderFrom n.parents []

/-- The maps hold the parents and the children of a graph. -/
structure Numbers (n : Numbered α) (g : Digraph α) : Prop where
  nodes : n.nodes = g.nodes
  parents : n.parents.Hold g.nodes fun a => some (g.parents a).toFinset
  children : n.children.Hold g.nodes fun a => some (g.children a).toFinset

/-! ## Neighbours and closures -/

section Neighbours

variable {n : Numbered α} {links : Links} {next : α → List α} (hall : ∀ a, a ∈ n.nodes)
  (hnodup : n.nodes.Nodup) (hnext : ∀ a, (next a).Sublist n.nodes)
  (h : links.Hold n.nodes fun a => some (next a).toFinset)
include hall hnodup hnext h

omit hall in
theorem sort_linked (a : α) :
    (links.linked (n.nodes.idxOf a)).sort = (next a).map n.nodes.idxOf := by
  rw [h.linked, Option.getD_some, sort_image_idxOf hnodup (hnext a)]

theorem neighbours_eq (a : α) : n.neighbours links a = .ok (next a) := by
  rw [neighbours, idxOf?_of_mem (hall a)]
  dsimp only
  rw [sort_linked hnodup hnext h, read, mapM_readAt_idxOf fun b _ => hall b]

/-- **A walk by number.** What has been met is off the list, so that it makes no difference
that it is kept out of the queue. -/
theorem meet_map_idxOf {a : α} {met : Finset Nat} {unseen queue : List α} (hunseen : unseen.Nodup)
    (hmet : ∀ b, b ∈ unseen ↔ b ≠ a ∧ n.nodes.idxOf b ∉ met) :
    meet links (n.nodes.idxOf a) met (queue.map n.nodes.idxOf) =
      (Digraph.visit next unseen queue).map n.nodes.idxOf := by
  have hplace : ∀ b c, n.nodes.idxOf b = n.nodes.idxOf c ↔ b = c := fun b c =>
    (idxOf_injective hall).eq_iff
  generalize hids : queue.map n.nodes.idxOf = ids
  -- by the walk on numbers, whose queue is the shorter one
  fun_induction meet links (n.nodes.idxOf a) met ids generalizing queue unseen with
  | case1 met =>
    obtain rfl := List.map_eq_nil_iff.mp hids
    rw [Digraph.visit, List.map_nil]
  | case2 met i ids hi ih =>
    obtain ⟨b, queue, rfl, rfl, hqueue⟩ := List.map_eq_cons_iff.mp hids
    have hb : b ∉ unseen := by
      rw [hmet]
      intro hmem
      obtain ⟨hne, hnew⟩ := hmem
      rcases hi with hstart | hold
      · exact hne ((hplace b a).mp hstart)
      · exact hnew hold
    rw [Digraph.visit, if_neg hb]
    exact ih hunseen hmet hqueue
  | case3 met i ids hi ih =>
    obtain ⟨b, queue, rfl, rfl, rfl⟩ := List.map_eq_cons_iff.mp hids
    rw [hplace, not_or] at hi
    have hb : b ∈ unseen := (hmet b).mpr hi
    have hmet' : ∀ c, c ∈ unseen.erase b ↔
        c ≠ a ∧ n.nodes.idxOf c ∉ insert (n.nodes.idxOf b) met := by
      intro c
      rw [hunseen.mem_erase_iff, hmet, Finset.mem_insert, hplace]
      tauto
    have hqueue : (queue ++ (next b).filter fun c =>
          n.nodes.idxOf c ∉ insert (n.nodes.idxOf b) met).map n.nodes.idxOf =
        queue.map n.nodes.idxOf ++ (links.linked (n.nodes.idxOf b)).sort.filter fun j =>
          j ∉ insert (n.nodes.idxOf b) met := by
      rw [List.map_append, sort_linked hnodup hnext h, List.filter_map]
      rfl
    rw [Digraph.visit, if_pos hb, List.map_cons, ih (hunseen.erase b) hmet' hqueue,
      Digraph.visit_append_filter]
    intro c _ hc hmem
    exact of_decide_eq_false hc ((hmet' c).mp hmem).2

theorem closure_eq (a : α) :
    n.closure links a = .ok (Digraph.visit next (n.nodes.erase a) (next a)) := by
  have hmet : ∀ b, b ∈ n.nodes.erase a ↔ b ≠ a ∧ n.nodes.idxOf b ∉ (∅ : Finset Nat) := by
    intro b
    rw [hnodup.mem_erase_iff, and_iff_left (hall b), and_iff_left (Finset.notMem_empty _)]
  rw [closure, idxOf?_of_mem (hall a)]
  dsimp only
  rw [sort_linked hnodup hnext h, meet_map_idxOf hall hnodup hnext h (hnodup.erase a) hmet, read,
    mapM_readAt_idxOf fun b _ => hall b]

end Neighbours

end Numbered

/-! ## Orders -/

/-- The parents of a node that remain, if it remains itself. -/
def Digraph.within (g : Digraph α) (remaining : Finset α) (a : α) : Option (Finset α) :=
  if a ∈ remaining then some ((g.parents a).toFinset ∩ remaining) else none

namespace Links.Hold

variable {g : Digraph α} {remaining children : Links} (hall : ∀ a, a ∈ g.nodes)
include hall

/-- **One number.** As the maps are converse to each other, the node goes from the parents of
all that remain. -/
theorem settle {s : Finset α} (h : remaining.Hold g.nodes (g.within s))
    (hchildren : children.Hold g.nodes fun a => some (g.children a).toFinset) (a : α) :
    (Links.settle children remaining (g.nodes.idxOf a)).Hold g.nodes (g.within (s.erase a)) where
  lookup b := by
    have hplace := idxOf_injective hall
    have hchild : g.nodes.idxOf b ∈ children.linked (g.nodes.idxOf a) ↔ a ∈ g.parents b := by
      rw [hchildren.linked, Option.getD_some, hplace.mem_finset_image, List.mem_toFinset,
        Digraph.mem_children_iff hall, Digraph.Needs]
    rw [lookup_settle]
    by_cases hb : b = a
    · rw [if_pos (hb ▸ rfl), Digraph.within, if_neg (by simp [hb]), Option.map_none]
    rw [if_neg fun hsame => hb (hplace hsame), h.lookup]
    unfold Digraph.within
    by_cases hs : b ∈ s
    · rw [if_pos hs, if_pos (Finset.mem_erase.mpr ⟨hb, hs⟩), Finset.inter_erase]
      split_ifs with hlinked
      · simp [Finset.image_erase hplace]
      · rw [hchild] at hlinked
        rw [Finset.erase_eq_of_notMem (by simp [hlinked])]
    · rw [if_neg hs, if_neg fun hmem => hs (Finset.mem_of_mem_erase hmem), Option.map_none,
        Option.map_none, ite_self]
  lt_length i hi := by
    rw [keys_settle] at hi
    exact h.lt_length i (Finset.mem_of_mem_erase hi)

/-- **One round.** -/
theorem foldl_settle {s : Finset α} (h : remaining.Hold g.nodes (g.within s))
    (hchildren : children.Hold g.nodes fun a => some (g.children a).toFinset) (round : List α) :
    ((round.map g.nodes.idxOf).foldl (Links.settle children) remaining).Hold g.nodes
      (g.within (s \ round.toFinset)) := by
  induction round generalizing remaining s with
  | nil => simpa using h
  | cons a round ih =>
    rw [List.map_cons, List.foldl_cons, List.toFinset_cons, Finset.sdiff_insert,
      ← Finset.erase_sdiff_comm]
    exact ih (h.settle hall hchildren a)

variable (hnodup : g.nodes.Nodup) {l : List α} (h : remaining.Hold g.nodes (g.within l.toFinset))
include hnodup h

omit hall in
theorem keys_eq : remaining.keys = l.toFinset.image g.nodes.idxOf := by
  have hkeys : ∀ a, g.nodes.idxOf a ∈ remaining.keys ↔ a ∈ l := by
    intro a
    rw [mem_keys_iff, h.lookup, Option.isSome_map, Digraph.within, Option.isSome_ite,
      List.mem_toFinset]
  ext i
  rw [Finset.mem_image]
  constructor
  · intro hi
    obtain ⟨a, rfl⟩ := h.exists_of_mem_keys hnodup hi
    exact ⟨a, List.mem_toFinset.mpr ((hkeys a).mp hi), rfl⟩
  · rintro ⟨a, ha, rfl⟩
    exact (hkeys a).mpr (List.mem_toFinset.mp ha)

omit hall in
theorem keys_eq_empty_iff : remaining.keys = ∅ ↔ l = [] := by
  rw [h.keys_eq hnodup, Finset.image_eq_empty, List.toFinset_eq_empty_iff]

omit hnodup hall in
theorem lookup_eq_empty_iff {a : α} :
    remaining.lookup (g.nodes.idxOf a) = some ∅ ↔ a ∈ g.ready l := by
  rw [h.lookup, Digraph.mem_ready, Digraph.within]
  by_cases ha : a ∈ l
  · rw [if_pos (List.mem_toFinset.mpr ha), Option.map_some, Option.some_inj, Finset.image_eq_empty,
      ← Finset.disjoint_iff_inter_eq_empty, List.disjoint_toFinset_iff_disjoint, and_iff_right ha]
    rfl
  · simp [ha]

omit hall in
theorem ready_eq (hl : l.Sublist g.nodes) :
    remaining.ready = (g.ready l).map g.nodes.idxOf := by
  have hready : (remaining.keys.filter fun i => remaining.lookup i = some ∅) =
      (g.ready l).toFinset.image g.nodes.idxOf := by
    ext i
    rw [h.keys_eq hnodup, Finset.mem_filter, Finset.mem_image, Finset.mem_image]
    constructor
    · rintro ⟨⟨a, -, rfl⟩, hempty⟩
      exact ⟨a, List.mem_toFinset.mpr (h.lookup_eq_empty_iff.mp hempty), rfl⟩
    · rintro ⟨a, ha, rfl⟩
      rw [List.mem_toFinset] at ha
      exact ⟨⟨a, List.mem_toFinset.mpr (Digraph.mem_ready.mp ha).1, rfl⟩,
        h.lookup_eq_empty_iff.mpr ha⟩
  rw [Links.ready, hready]
  exact sort_image_idxOf hnodup (List.filter_sublist.trans hl)

end Links.Hold

namespace Numbered

variable {n : Numbered α} {g : Digraph α} (hall : ∀ a, a ∈ g.nodes) (hnodup : g.nodes.Nodup)
  (h : n.Numbers g)
include hall hnodup h

/-- **Rounds by number.** -/
theorem orderFrom_eq {remaining : Links} {l : List α} (hl : l.Sublist g.nodes)
    (hremaining : remaining.Hold g.nodes (g.within l.toFinset)) (taken : List α) :
    n.orderFrom remaining taken = .ok (if (g.peel l).stuck = []
      then .ok (taken ++ (g.peel l).rounds.flatten) else .error (g.peel l).stuck) := by
  have hread : ∀ l : List α, n.read (l.map g.nodes.idxOf) = .ok l := by
    intro l
    rw [read, h.nodes]
    exact mapM_readAt_idxOf fun a _ => hall a
  -- by the rounds of the graph itself: that the map holds what remains carries over to the next
  induction l using Digraph.peel.induct g generalizing remaining taken with
  | case1 l hnone =>
    have hkeys := hremaining.keys_eq_empty_iff hnodup
    have hready : remaining.ready = [] := by
      rw [hremaining.ready_eq hnodup hl, hnone, List.map_nil]
    rw [Digraph.peel_of_ready_nil hnone, orderFrom]
    by_cases hnil : l = []
    · rw [if_pos (hkeys.mpr hnil), if_pos hnil, List.flatten_nil, List.append_nil]
    · rw [if_neg (hkeys.not.mpr hnil), if_pos hready, if_neg hnil, hremaining.keys_eq hnodup,
        sort_image_idxOf hnodup hl, hread]
      rfl
  | case2 l hsome ih =>
    have hready := hremaining.ready_eq hnodup hl
    have hsome' : remaining.ready ≠ [] := by
      rwa [hready, ne_eq, List.map_eq_nil_iff]
    have hkeys : remaining.keys ≠ ∅ := by
      rw [ne_eq, hremaining.keys_eq_empty_iff hnodup]
      rintro rfl
      exact hsome rfl
    have hrest := hremaining.foldl_settle hall h.children (g.ready l)
    have hunready : l.toFinset \ (g.ready l).toFinset = (g.unready l).toFinset := by
      ext a
      rw [Finset.mem_sdiff, List.mem_toFinset, List.mem_toFinset, List.mem_toFinset,
        Digraph.mem_unready]
    rw [hunready, ← hready] at hrest
    rw [Digraph.rounds_of_ready hsome, Digraph.stuck_of_ready hsome, orderFrom,
      if_neg hkeys, if_neg hsome', hready, hread, ok_bind, ← hready,
      ih (Digraph.unready_sublist.trans hl) hrest, List.flatten_cons, List.append_assoc]

theorem order_eq : n.order = .ok g.order := by
  have hremaining : n.parents.Hold g.nodes (g.within g.nodes.toFinset) := by
    have hwithin : g.within g.nodes.toFinset = fun a => some (g.parents a).toFinset := by
      funext a
      have hsub : (g.parents a).toFinset ⊆ g.nodes.toFinset := fun b _ =>
        List.mem_toFinset.mpr (hall b)
      rw [Digraph.within, if_pos (List.mem_toFinset.mpr (hall a)),
        Finset.inter_eq_left.mpr hsub]
    rw [hwithin]
    exact h.parents
  rw [order, orderFrom_eq hall hnodup h (List.Sublist.refl _) hremaining, List.nil_append]
  rfl

end Numbered

end LayeredSchema
