import LayeredSchema.Reference.Chain
import Mathlib.Data.List.Nodup
import Mathlib.Data.List.Perm.Subperm

/-!
# Where a chain ends

`follow` walks a chain with a list of the links that it has not met. This file
says where it comes out without that list. `linkAt?` is the link that a chain
reaches after so many steps, and a chain has one of three outcomes
(`Outcome`): some link of it answers, some link fails, or no link does either
and one of them is the first to be met again.

No chain has two of them (`Outcome.unique`). A link that answers or fails is
the last one, while a chain that meets a link again goes round for ever
(`MetAgainAt.isSome_linkAt?`). And `follow` comes to the outcome of its chain
(`follow_eq_iff`): the links that it has not met are those that were at no
earlier place of the chain, which one step preserves.

Where one chain takes every step that another one takes, it also answers what the
other one answers (`Outcome.map`). A chain that takes the same steps but stops earlier
is a part of the other one, with the same links as far as it goes
(`linkAt?_walk_iff`).
-/

namespace LayeredSchema

variable {α : Type}

/-! ## The links of a chain -/

/-- The link that a chain reaches after so many steps, if it gets that far. -/
def linkAt? (next : α → Option α) (first : α) : Nat → Option α
  | 0 => some first
  | n + 1 => (linkAt? next first n).bind next

/-- After `n` steps the chain is at a link where it has been before. -/
def MetAgainAt (next : α → Option α) (first : α) (n : Nat) (a : α) : Prop :=
  linkAt? next first n = some a ∧ ∃ m < n, linkAt? next first m = some a

/-- The first link that the chain meets again. -/
def FirstMetAgain (next : α → Option α) (first a : α) : Prop :=
  ∃ n, MetAgainAt next first n a ∧ ∀ k < n, ∀ b, ¬ MetAgainAt next first k b

section Links

variable {next : α → Option α} {first a b : α} {m n : Nat}

theorem linkAt?_add : linkAt? next first (m + n) =
    (linkAt? next first m).bind fun a => linkAt? next a n := by
  induction n with
  | zero => cases linkAt? next first m <;> rfl
  | succ n ih =>
    rw [← Nat.add_assoc, linkAt?, ih, Option.bind_assoc]
    rfl

theorem linkAt?_succ_eq_some : linkAt? next first (n + 1) = some b ↔
    ∃ a, linkAt? next first n = some a ∧ next a = some b := by
  rw [linkAt?, Option.bind_eq_some_iff]

/-- A chain that gets to some place has been at all places before. -/
theorem exists_linkAt?_of_le (h : linkAt? next first n = some b) (hmn : m ≤ n) :
    ∃ a, linkAt? next first m = some a := by
  obtain ⟨k, rfl⟩ := Nat.exists_eq_add_of_le hmn
  rw [linkAt?_add] at h
  obtain ⟨a, ha, -⟩ := Option.bind_eq_some_iff.mp h
  exact ⟨a, ha⟩

/-- A link with none after it is the last one. -/
theorem le_of_next_eq_none (ha : linkAt? next first n = some a) (hlast : next a = none)
    (hb : linkAt? next first m = some b) : m ≤ n := by
  by_contra hlt
  obtain ⟨c, hc⟩ := exists_linkAt?_of_le hb (Nat.lt_of_not_le hlt)
  rw [linkAt?, ha, Option.bind_some, hlast] at hc
  cases hc

/-- A chain that meets a link again never ends: from the second visit on it
repeats what came after the first. -/
theorem MetAgainAt.isSome_linkAt? (h : MetAgainAt next first n a) (k : Nat) :
    (linkAt? next first k).isSome := by
  obtain ⟨hn, m, hmn, hm⟩ := h
  have hperiod : ∀ i, linkAt? next first (n + i) = linkAt? next first (m + i) := by
    intro i
    rw [linkAt?_add, linkAt?_add, hn, hm]
  induction k using Nat.strongRecOn with
  | _ k ih =>
    rcases Nat.le_total k n with hk | hk
    · obtain ⟨b, hb⟩ := exists_linkAt?_of_le hn hk
      simp [hb]
    · -- beyond the second visit, go back to the same distance from the first
      obtain ⟨i, rfl⟩ := Nat.exists_eq_add_of_le hk
      rw [hperiod]
      exact ih (m + i) (by omega)

theorem FirstMetAgain.isSome_linkAt? (h : FirstMetAgain next first a) (k : Nat) :
    (linkAt? next first k).isSome := by
  obtain ⟨n, hn, -⟩ := h
  exact hn.isSome_linkAt? k

theorem FirstMetAgain.unique (ha : FirstMetAgain next first a)
    (hb : FirstMetAgain next first b) : a = b := by
  obtain ⟨m, hm, hmfirst⟩ := ha
  obtain ⟨n, hn, hnfirst⟩ := hb
  rcases Nat.lt_trichotomy m n with hlt | rfl | hlt
  · exact absurd hm (hnfirst m hlt a)
  · exact Option.some.inj (hm.1.symm.trans hn.1)
  · exact absurd hn (hmfirst n hlt b)

/-- As long as no link is met again, a chain has met no more links than there are. -/
theorem lt_length_of_fresh {all : List α} (hall : ∀ a, a ∈ all)
    (hn : linkAt? next first n = some a)
    (hfresh : ∀ k ≤ n, ∀ b, ¬ MetAgainAt next first k b) : n < all.length := by
  have hlink : ∀ k, ∃ b, k ≤ n → linkAt? next first k = some b := by
    intro k
    by_cases hk : k ≤ n
    · obtain ⟨b, hb⟩ := exists_linkAt?_of_le hn hk
      exact ⟨b, fun _ => hb⟩
    · exact ⟨a, fun h => absurd h hk⟩
  choose link hlink using hlink
  have hnodup : ((List.range (n + 1)).map link).Nodup := by
    refine List.Nodup.map_on ?_ List.nodup_range
    intro i hi j hj hij
    have hin : i ≤ n := Nat.le_of_lt_succ (List.mem_range.mp hi)
    have hjn : j ≤ n := Nat.le_of_lt_succ (List.mem_range.mp hj)
    -- of two places with one link the later one would meet it again
    rcases Nat.lt_trichotomy i j with hlt | heq | hlt
    · exact absurd ⟨hlink j hjn, i, hlt, hij ▸ hlink i hin⟩ (hfresh j hjn _)
    · exact heq
    · exact absurd ⟨hlink i hin, j, hlt, hij ▸ hlink j hjn⟩ (hfresh i hin _)
  have hlength := (hnodup.subperm fun b _ => hall b).length_le
  rw [List.length_map, List.length_range] at hlength
  omega

end Links

/-! ## Parts of a chain -/

section Parts

variable {next walk : α → Option α} {goes : α → α → Prop} {first a : α} {n : Nat}
  (hwalk : ∀ a b, walk a = some b ↔ next a = some b ∧ goes a b)
include hwalk

/-- A walk that takes some of the steps of a chain is at the same link as the chain, as long
as it takes all of them. -/
theorem linkAt?_walk_iff : linkAt? walk first n = some a ↔ linkAt? next first n = some a ∧
    ∀ m < n, ∀ b c, linkAt? next first m = some b → linkAt? next first (m + 1) = some c →
      goes b c := by
  induction n generalizing a with
  | zero => simp [linkAt?]
  | succ n ih =>
    rw [linkAt?_succ_eq_some, linkAt?_succ_eq_some]
    constructor
    · intro h
      obtain ⟨b, hb, hba⟩ := h
      obtain ⟨hbnext, hbefore⟩ := ih.mp hb
      obtain ⟨hnext, hgoes⟩ := (hwalk b a).mp hba
      refine ⟨⟨b, hbnext, hnext⟩, ?_⟩
      intro m hm b' c hb' hc
      rcases Nat.lt_or_eq_of_le (Nat.le_of_lt_succ hm) with hlt | rfl
      · exact hbefore m hlt b' c hb' hc
      · obtain rfl : b = b' := Option.some.inj (hbnext.symm.trans hb')
        obtain rfl : a = c :=
          Option.some.inj ((linkAt?_succ_eq_some.mpr ⟨b, hbnext, hnext⟩).symm.trans hc)
        exact hgoes
    · intro h
      obtain ⟨⟨b, hb, hba⟩, hbefore⟩ := h
      have hgoes := hbefore n (Nat.lt_succ_self n) b a hb (linkAt?_succ_eq_some.mpr ⟨b, hb, hba⟩)
      refine ⟨b, ih.mpr ⟨hb, ?_⟩, (hwalk b a).mpr ⟨hba, hgoes⟩⟩
      intro m hm
      exact hbefore m (Nat.lt_succ_of_lt hm)

theorem metAgainAt_walk_iff : MetAgainAt walk first n a ↔ MetAgainAt next first n a ∧
    ∀ m < n, ∀ b c, linkAt? next first m = some b → linkAt? next first (m + 1) = some c →
      goes b c := by
  constructor
  · intro h
    obtain ⟨hn, m, hmn, hm⟩ := h
    obtain ⟨hnext, hbefore⟩ := (linkAt?_walk_iff hwalk).mp hn
    exact ⟨⟨hnext, m, hmn, ((linkAt?_walk_iff hwalk).mp hm).1⟩, hbefore⟩
  · intro h
    obtain ⟨⟨hn, m, hmn, hm⟩, hbefore⟩ := h
    refine ⟨(linkAt?_walk_iff hwalk).mpr ⟨hn, hbefore⟩, m, hmn, ?_⟩
    exact (linkAt?_walk_iff hwalk).mpr ⟨hm, fun k hk => hbefore k (Nat.lt_trans hk hmn)⟩

/-- A link that the walk is the first to meet again is the first that the chain meets again. -/
theorem firstMetAgain_walk_iff : FirstMetAgain walk first a ↔
    ∃ n, MetAgainAt next first n a ∧ (∀ k < n, ∀ b, ¬ MetAgainAt next first k b) ∧
      ∀ m < n, ∀ b c, linkAt? next first m = some b → linkAt? next first (m + 1) = some c →
        goes b c := by
  refine exists_congr fun n => ?_
  rw [metAgainAt_walk_iff hwalk, and_assoc]
  refine and_congr_right fun _ => ?_
  constructor
  · intro h
    obtain ⟨hbefore, hfirst⟩ := h
    refine ⟨?_, hbefore⟩
    intro k hk b hb
    -- up to there the walk is the chain
    exact hfirst k hk b ((metAgainAt_walk_iff hwalk).mpr
      ⟨hb, fun m hm => hbefore m (Nat.lt_trans hm hk)⟩)
  · intro h
    obtain ⟨hfirst, hbefore⟩ := h
    refine ⟨hbefore, ?_⟩
    intro k hk b hb
    exact hfirst k hk b ((metAgainAt_walk_iff hwalk).mp hb).1

end Parts

/-! ## Outcomes -/

variable {β ε : Type}

/-- The link after a link, unless that one answers or fails. -/
def nextLink? (step : α → Except ε (Link α β)) (a : α) : Option α :=
  match step a with
  | .ok (.next b) => some b
  | _ => none

theorem nextLink?_eq_some {step : α → Except ε (Link α β)} {a b : α} :
    nextLink? step a = some b ↔ step a = .ok (.next b) := by
  unfold nextLink?
  split <;> simp_all

/-- What a chain comes to. -/
inductive Outcome (step : α → Except ε (Link α β)) (revisited : α → ε) (first : α) :
    Except ε β → Prop
  | stops {n : Nat} {a : α} {answer : β} (hn : linkAt? (nextLink? step) first n = some a)
      (ha : step a = .ok (.stop answer)) : Outcome step revisited first (.ok answer)
  | fails {n : Nat} {a : α} {e : ε} (hn : linkAt? (nextLink? step) first n = some a)
      (ha : step a = .error e) : Outcome step revisited first (.error e)
  | revisits {a : α} (ha : FirstMetAgain (nextLink? step) first a) :
      Outcome step revisited first (.error (revisited a))

section Outcomes

variable {step : α → Except ε (Link α β)} {revisited : α → ε} {first : α}

/-- A link that ends the chain is the only one to do so, and the chain meets no
link again. -/
theorem Outcome.last {n : Nat} {a : α} (ha : linkAt? (nextLink? step) first n = some a)
    (hlast : nextLink? step a = none) :
    (∀ {m : Nat} {b : α}, linkAt? (nextLink? step) first m = some b →
      nextLink? step b = none → b = a) ∧ ∀ b, ¬ FirstMetAgain (nextLink? step) first b := by
  constructor
  · intro m b hb hblast
    have hmn := le_of_next_eq_none ha hlast hb
    have hnm := le_of_next_eq_none hb hblast ha
    obtain rfl := Nat.le_antisymm hmn hnm
    exact Option.some.inj (hb.symm.trans ha)
  · -- a chain that goes round has a link after every place, this one included
    intro b hb
    have hsome := hb.isSome_linkAt? (n + 1)
    rw [linkAt?, ha, Option.bind_some, hlast] at hsome
    cases hsome

theorem Outcome.unique {r r' : Except ε β} (h : Outcome step revisited first r)
    (h' : Outcome step revisited first r') : r = r' := by
  have hstop : ∀ {a answer}, step a = .ok (.stop answer) → nextLink? step a = none := by
    intro a answer ha
    rw [nextLink?, ha]
  have hfail : ∀ {a e}, step a = .error e → nextLink? step a = none := by
    intro a e ha
    rw [nextLink?, ha]
  cases h with
  | stops hn ha =>
    have hlast := Outcome.last hn (hstop ha)
    cases h' with
    | stops hm hb =>
      obtain rfl := hlast.1 hm (hstop hb)
      simpa using ha.symm.trans hb
    | fails hm hb =>
      obtain rfl := hlast.1 hm (hfail hb)
      cases ha.symm.trans hb
    | revisits hb => exact absurd hb (hlast.2 _)
  | fails hn ha =>
    have hlast := Outcome.last hn (hfail ha)
    cases h' with
    | stops hm hb =>
      obtain rfl := hlast.1 hm (hstop hb)
      cases ha.symm.trans hb
    | fails hm hb =>
      obtain rfl := hlast.1 hm (hfail hb)
      simpa using ha.symm.trans hb
    | revisits hb => exact absurd hb (hlast.2 _)
  | revisits ha =>
    cases h' with
    | stops hm hb => exact absurd ha ((Outcome.last hm (hstop hb)).2 _)
    | fails hm hb => exact absurd ha ((Outcome.last hm (hfail hb)).2 _)
    | revisits hb => rw [ha.unique hb]

/-- A chain whose steps include those of another one gets where that one gets. -/
theorem linkAt?_map {α' β' ε' : Type} {step' : α' → Except ε' (Link α' β')} {f : α → α'}
    (hnext : ∀ a b, step a = .ok (.next b) → step' (f a) = .ok (.next (f b))) {n : Nat} {a : α}
    (h : linkAt? (nextLink? step) first n = some a) :
    linkAt? (nextLink? step') (f first) n = some (f a) := by
  induction n generalizing a with
  | zero =>
    obtain rfl : first = a := Option.some.inj h
    rfl
  | succ n ih =>
    obtain ⟨b, hb, hba⟩ := linkAt?_succ_eq_some.mp h
    exact linkAt?_succ_eq_some.mpr
      ⟨f b, ih hb, nextLink?_eq_some.mpr (hnext b a (nextLink?_eq_some.mp hba))⟩

/-- And if it answers where that one does, it comes to the same. -/
theorem Outcome.map {α' β' ε' : Type} {step' : α' → Except ε' (Link α' β')}
    {revisited' : α' → ε'} {f : α → α'} {g : β → β'}
    (hnext : ∀ a b, step a = .ok (.next b) → step' (f a) = .ok (.next (f b)))
    (hstop : ∀ a r, step a = .ok (.stop r) → step' (f a) = .ok (.stop (g r))) {r : β}
    (h : Outcome step revisited first (.ok r)) :
    Outcome step' revisited' (f first) (.ok (g r)) := by
  cases h with
  | stops hn ha => exact .stops (linkAt?_map hnext hn) (hstop _ r ha)

variable [DecidableEq α]

/-- From any place of the chain, as long as no link before was met again and
the unseen links are those that were at no place up to here. -/
theorem outcome_follow_from {unseen : List α} {a : α} {n : Nat}
    (hn : linkAt? (nextLink? step) first n = some a)
    (hunseen : ∀ b, b ∈ unseen ↔ ∀ m ≤ n, linkAt? (nextLink? step) first m ≠ some b)
    (hnodup : unseen.Nodup)
    (hfresh : ∀ k ≤ n, ∀ b, ¬ MetAgainAt (nextLink? step) first k b) :
    Outcome step revisited first (follow step revisited unseen a) := by
  fun_induction follow step revisited unseen a generalizing n with
  | case1 unseen a e ha => exact .fails hn ha
  | case2 unseen a answer ha => exact .stops hn ha
  | case3 unseen a b ha hmem ih =>
    have hb : linkAt? (nextLink? step) first (n + 1) = some b :=
      linkAt?_succ_eq_some.mpr ⟨a, hn, nextLink?_eq_some.mpr ha⟩
    refine ih hb ?_ (hnodup.erase b) ?_
    · -- the unseen links lose the one that is met now
      intro c
      rw [hnodup.mem_erase_iff, hunseen]
      constructor
      · rintro ⟨hcb, hc⟩ m hm hmc
        rcases Nat.lt_or_eq_of_le hm with hlt | rfl
        · exact hc m (Nat.le_of_lt_succ hlt) hmc
        · exact hcb (Option.some.inj (hmc.symm.trans hb))
      · intro hc
        refine ⟨?_, fun m hm => hc m (Nat.le_succ_of_le hm)⟩
        rintro rfl
        exact hc (n + 1) (Nat.le_refl _) hb
    · -- and it was unseen, so that no link has been met again
      intro k hk c hc
      rcases Nat.lt_or_eq_of_le hk with hlt | rfl
      · exact hfresh k (Nat.le_of_lt_succ hlt) c hc
      · obtain ⟨hcn, m, hm, hcm⟩ := hc
        obtain rfl : b = c := Option.some.inj (hb.symm.trans hcn)
        exact (hunseen b).mp hmem m (Nat.le_of_lt_succ hm) hcm
  | case4 unseen a b ha hmem =>
    have hb : linkAt? (nextLink? step) first (n + 1) = some b :=
      linkAt?_succ_eq_some.mpr ⟨a, hn, nextLink?_eq_some.mpr ha⟩
    rw [hunseen] at hmem
    push Not at hmem
    obtain ⟨m, hm, hmb⟩ := hmem
    exact .revisits ⟨n + 1, ⟨hb, m, Nat.lt_succ_of_le hm, hmb⟩,
      fun k hk => hfresh k (Nat.le_of_lt_succ hk)⟩

/-- **Where a chain ends.** With every link but the first unseen, `follow` comes
to the outcome of the chain. -/
theorem follow_eq_iff {all : List α} (hall : ∀ a, a ∈ all) (hnodup : all.Nodup)
    {r : Except ε β} :
    follow step revisited (all.erase first) first = r ↔ Outcome step revisited first r := by
  have hfollow : Outcome step revisited first
      (follow step revisited (all.erase first) first) := by
    refine outcome_follow_from (n := 0) rfl ?_ (hnodup.erase first) ?_
    · intro b
      simp [hnodup.mem_erase_iff, hall, linkAt?, eq_comm]
    · rintro k hk b ⟨-, m, hm, -⟩
      omega
  constructor
  · rintro rfl
    exact hfollow
  · exact hfollow.unique

end Outcomes

end LayeredSchema
