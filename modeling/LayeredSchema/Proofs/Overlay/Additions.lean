import LayeredSchema.Overlay.Definition
import Mathlib.Data.List.Basic

/-!
# What layers only ever add

Custom roles and snippets are never replaced: `appendNew` keeps all that the
base has and adds of the layer what resembles nothing before it. This file says
what every element of the layer finds in the result (`any_appendNew`), what
changes nothing (`appendNew_of_found`), what is added (`appendNew_drop`), that
layers with nothing in common add what each of them would add alone
(`appendNew_appendNew_of_apart`), and that additions can be regrouped
(`appendNew_appendNew`).

What two elements resemble each other by is a parameter. It has to be reflexive
for an addition to be found again, and transitive for additions to be regrouped.
-/

namespace LayeredSchema

variable {α : Type} {same : α → α → Bool}

theorem appendNew_nil (base : List α) : appendNew same base [] = base := rfl

theorem appendNew_cons (base : List α) (a : α) (layer : List α) :
    appendNew same base (a :: layer) =
      appendNew same (if base.any fun b => same b a then base else base ++ [a]) layer := rfl

theorem appendNew_append (base first second : List α) :
    appendNew same base (first ++ second) = appendNew same (appendNew same base first) second :=
  List.foldl_append

/-- Nothing of the base is lost. -/
theorem base_prefix_appendNew (base layer : List α) : base <+: appendNew same base layer := by
  induction layer generalizing base with
  | nil => exact List.prefix_refl base
  | cons a layer ih =>
    rw [appendNew_cons]
    split
    next => exact ih base
    next => exact (List.prefix_append base [a]).trans (ih (base ++ [a]))

/-- Every element of the layer resembles something in the result: itself, if
nothing before it. -/
theorem any_appendNew (hrefl : ∀ a, same a a) (base : List α) {layer : List α} {a : α}
    (ha : a ∈ layer) : (appendNew same base layer).any fun b => same b a := by
  induction layer generalizing base with
  | nil => exact absurd ha List.not_mem_nil
  | cons a' layer ih =>
    rw [appendNew_cons]
    rcases List.mem_cons.mp ha with rfl | ha
    · have hfound : ∃ b ∈ (if base.any fun b => same b a then base else base ++ [a]),
          same b a := by
        split
        next h => exact List.any_eq_true.mp h
        next => exact ⟨a, by simp, hrefl a⟩
      obtain ⟨b, hb, hba⟩ := hfound
      exact List.any_eq_true.mpr ⟨b, (base_prefix_appendNew _ layer).mem hb, hba⟩
    · exact ih _ ha

/-- A layer of which everything is there already adds nothing. -/
theorem appendNew_of_found {base layer : List α}
    (h : ∀ a ∈ layer, base.any fun b => same b a) : appendNew same base layer = base := by
  induction layer with
  | nil => rfl
  | cons a layer ih =>
    obtain ⟨ha, hlayer⟩ := List.forall_mem_cons.mp h
    rw [appendNew_cons, if_pos ha, ih hlayer]

/-- A list that resembles itself nowhere, added to nothing. -/
theorem appendNew_nil_left {layer : List α} (h : layer.Pairwise fun a b => ¬ same a b) :
    appendNew same [] layer = layer := by
  suffices hmore : ∀ base : List α, (∀ b ∈ base, ∀ a ∈ layer, ¬ same b a) →
      appendNew same base layer = base ++ layer from hmore [] (by simp)
  induction layer with
  | nil => exact fun base _ => (List.append_nil base).symm
  | cons a layer ih =>
    obtain ⟨ha, hlayer⟩ := List.pairwise_cons.mp h
    intro base hbase
    have hnew : ¬ (base.any fun b => same b a) := by
      rw [List.any_eq_true]
      exact fun ⟨b, hb, hba⟩ => hbase b hb a List.mem_cons_self hba
    rw [appendNew_cons, if_neg hnew, ih hlayer (base ++ [a]), List.append_assoc,
      List.singleton_append]
    intro b hb c hc
    rcases List.mem_append.mp hb with hb | hb
    · exact hbase b hb c (List.mem_cons_of_mem _ hc)
    · rw [List.mem_singleton.mp hb]
      exact ha c hc

/-- What of a layer is added resembles nothing in the base. -/
theorem appendNew_drop_sublist (base layer : List α) :
    ((appendNew same base layer).drop base.length).Sublist
      (layer.filter fun a => !base.any fun b => same b a) := by
  induction layer generalizing base with
  | nil =>
    rw [appendNew_nil, List.drop_length]
    exact List.nil_sublist _
  | cons a layer ih =>
    rw [appendNew_cons]
    by_cases ha : base.any fun b => same b a
    · rw [if_pos ha, List.filter_cons_of_neg (by simp [ha])]
      exact ih base
    · -- what is added with `a` in the base comes after `a`
      rw [if_neg ha, List.filter_cons_of_pos (by simp [ha])]
      have hprefix : base ++ [a] <+: appendNew same (base ++ [a]) layer :=
        base_prefix_appendNew (base ++ [a]) layer
      obtain ⟨added, hadded⟩ := hprefix
      have hrest := ih (base ++ [a])
      rw [← hadded, List.drop_left] at hrest
      rw [← hadded, List.append_assoc, List.drop_left, List.singleton_append]
      refine (hrest.trans (List.monotone_filter_right _ fun c hc => ?_)).cons_cons a
      simp only [List.any_append, Bool.not_or, Bool.and_eq_true] at hc
      exact hc.1

/-- Of a layer that resembles itself nowhere, everything is added that resembles nothing
in the base. -/
theorem appendNew_drop (base : List α) {layer : List α}
    (h : layer.Pairwise fun a b => ¬ same a b) :
    (appendNew same base layer).drop base.length =
      layer.filter fun a => !base.any fun b => same b a := by
  induction layer generalizing base with
  | nil => rw [appendNew_nil, List.drop_length, List.filter_nil]
  | cons a layer ih =>
    obtain ⟨ha, hlayer⟩ := List.pairwise_cons.mp h
    rw [appendNew_cons]
    by_cases hany : base.any fun b => same b a
    · rw [if_pos hany, List.filter_cons_of_neg (by simp [hany]), ih base hlayer]
    · have hprefix : base ++ [a] <+: appendNew same (base ++ [a]) layer :=
        base_prefix_appendNew (base ++ [a]) layer
      obtain ⟨added, hadded⟩ := hprefix
      have hrest := ih (base ++ [a]) hlayer
      rw [← hadded, List.drop_left] at hrest
      rw [if_neg hany, List.filter_cons_of_pos (by simp [hany]), ← hadded, List.append_assoc,
        List.drop_left, List.singleton_append, hrest]
      congr 1
      refine List.filter_congr fun c hc => ?_
      simp [ha c hc]

/-- What a base has besides that resembles nothing in the layer is passed over: the layer
adds what it would add without it. -/
theorem appendNew_of_apart {base extra more layer : List α}
    (h : ∀ e ∈ extra, ∀ a ∈ layer, ¬ same e a) :
    appendNew same (base ++ extra ++ more) layer =
      base ++ extra ++ (appendNew same (base ++ more) layer).drop base.length := by
  induction layer generalizing more with
  | nil => rw [appendNew_nil, appendNew_nil, List.drop_left]
  | cons a layer ih =>
    have hrest : ∀ e ∈ extra, ∀ c ∈ layer, ¬ same e c :=
      fun e he c hc => h e he c (List.mem_cons_of_mem a hc)
    have hextra : (extra.any fun e => same e a) = false :=
      List.any_eq_false.mpr fun e he => h e he a List.mem_cons_self
    have hany : ((base ++ extra ++ more).any fun b => same b a) =
        (base ++ more).any fun b => same b a := by
      rw [List.any_append, List.any_append, List.any_append, hextra, Bool.or_false]
    rw [appendNew_cons, appendNew_cons, hany]
    split
    next => exact ih hrest
    next => rw [List.append_assoc (base ++ extra), List.append_assoc base more, ih hrest]

/-- **Layers with nothing in common.** What each of them adds is what it would add alone. -/
theorem appendNew_appendNew_of_apart {base first second : List α}
    (h : ∀ a ∈ first, ∀ c ∈ second, ¬ same a c) :
    appendNew same (appendNew same base first) second =
      base ++ ((appendNew same base first).drop base.length ++
        (appendNew same base second).drop base.length) := by
  have hprefix : base <+: appendNew same base first := base_prefix_appendNew base first
  obtain ⟨added, hadded⟩ := hprefix
  have hsub : ((appendNew same base first).drop base.length).Sublist
      (first.filter fun a => !base.any fun b => same b a) := appendNew_drop_sublist base first
  rw [← hadded, List.drop_left] at hsub ⊢
  -- what the first layer adds is of that layer
  have hapart : ∀ a ∈ added, ∀ c ∈ second, ¬ same a c :=
    fun a ha => h a (List.mem_of_mem_filter (hsub.mem ha))
  have hsecond : appendNew same (base ++ added ++ []) second =
      base ++ added ++ (appendNew same (base ++ []) second).drop base.length :=
    appendNew_of_apart hapart
  rw [List.append_nil, List.append_nil] at hsecond
  rw [hsecond, List.append_assoc]

/-- **Additions can be regrouped.** What of `c` resembles something in `b` resembles
something in what `b` adds to `a`. -/
theorem appendNew_appendNew (hrefl : ∀ a, same a a)
    (htrans : ∀ a b c, same a b → same b c → same a c) (a b c : List α) :
    appendNew same a (appendNew same b c) = appendNew same (appendNew same a b) c := by
  induction c generalizing b with
  | nil => rfl
  | cons z c ih =>
    rw [appendNew_cons, appendNew_cons, ih]
    congr 1
    by_cases hz : b.any fun y => same y z
    · obtain ⟨y, hy, hyz⟩ := List.any_eq_true.mp hz
      obtain ⟨x, hx, hxy⟩ := List.any_eq_true.mp (any_appendNew hrefl a hy)
      have hfound : (appendNew same a b).any fun x => same x z :=
        List.any_eq_true.mpr ⟨x, hx, htrans x y z hxy hyz⟩
      rw [if_pos hz, if_pos hfound]
    · rw [if_neg hz, appendNew_append]
      rfl

end LayeredSchema
