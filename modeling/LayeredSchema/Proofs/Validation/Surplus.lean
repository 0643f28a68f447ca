import LayeredSchema.Siblings
import Mathlib.Data.Finset.Card
import Mathlib.Data.Finset.Image

/-!
# Counting what is repeated

Validation goes through a list of siblings and compares each with those before
it, so that what it finds depends on the order. How much it finds does not:
where sameness is equality of keys, the siblings that repeat an earlier one are
as many as there are siblings beyond the distinct keys (`length_repeated`).

A sibling may also have several keys, or none, as a routine does. Then what is
found at one sibling is the number of its keys that are not new, and the sum
over all siblings is again what the keys come to together, since the keys that
are new at some sibling are those by which the set of keys grows there
(`countP_flatMap_withEarlier`).
-/

namespace LayeredSchema

variable {α β κ : Type} [DecidableEq κ]

/-- How many keys of a list there are beyond one for each of the distinct keys. -/
def surplus (keys : List κ) : Nat := keys.length - keys.toFinset.card

example : surplus ["id", "name", "id", "name", "id"] = 3 := by decide

/-- What is beyond the distinct keys, and those, are all of the keys. -/
theorem surplus_add_card (keys : List κ) : surplus keys + keys.toFinset.card = keys.length := by
  have hle := keys.toFinset_card_le
  rw [surplus]
  omega

theorem surplus_perm {keys other : List κ} (h : keys.Perm other) :
    surplus keys = surplus other := by
  rw [surplus, surplus, h.length_eq, List.toFinset_eq_of_perm _ _ h]

/-- Keys may be renamed, as long as they stay apart. -/
theorem surplus_map_of_injective [DecidableEq α] {f : α → κ} (hf : Function.Injective f)
    (keys : List α) : surplus (keys.map f) = surplus keys := by
  have himage : (keys.map f).toFinset = keys.toFinset.image f := by
    ext k
    simp
  rw [surplus, surplus, himage, Finset.card_image_of_injective _ hf, List.length_map]

theorem surplus_eq_zero_iff {keys : List κ} : surplus keys = 0 ↔ keys.Nodup := by
  have hnodup : keys.toFinset.card = keys.length ↔ keys.Nodup :=
    Multiset.toFinset_card_eq_card_iff_nodup (m := (keys : Multiset κ))
  have hsum := surplus_add_card keys
  rw [← hnodup]
  omega

/-- A key is not new, or the set of keys grows by it. -/
theorem ite_mem_add_card_insert (k : κ) (known : Finset κ) :
    (if k ∈ known then 1 else 0) + (insert k known).card = 1 + known.card := by
  rw [Finset.card_insert_eq_ite]
  split_ifs <;> omega

namespace Siblings

theorem map_snd_withEarlier (before siblings : List α) :
    (withEarlier before siblings).map Prod.snd = siblings := by
  induction siblings generalizing before with
  | nil => rfl
  | cons a rest ih => rw [withEarlier, List.map_cons, ih]

/-- What is found at the siblings, in all. At one sibling, what is found and the
keys that are added to those before, and to some that stand outside the list,
are together the keys of the sibling. -/
theorem countP_flatMap_withEarlier (outside : Finset κ) (found : List α → α → List β)
    (p : β → Bool) (keys : α → List κ)
    (h : ∀ before a, (found before a).countP p +
        (outside ∪ ((a :: before).flatMap keys).toFinset).card =
      (keys a).length + (outside ∪ (before.flatMap keys).toFinset).card)
    (before siblings : List α) :
    ((withEarlier before siblings).flatMap fun q => found q.1 q.2).countP p +
        (outside ∪ ((before ++ siblings).flatMap keys).toFinset).card =
      (siblings.flatMap keys).length + (outside ∪ (before.flatMap keys).toFinset).card := by
  induction siblings generalizing before with
  | nil => simp [withEarlier]
  | cons a rest ih =>
    have hset : ((before ++ a :: rest).flatMap keys).toFinset =
        ((a :: before ++ rest).flatMap keys).toFinset := by
      ext k
      simp only [List.mem_toFinset, List.flatMap_append, List.flatMap_cons, List.mem_append]
      tauto
    -- the siblings before the rest are those before the whole list and the first one
    have hstep := h before a
    have hrest := ih (a :: before)
    rw [hset, withEarlier, List.flatMap_cons, List.countP_append, List.flatMap_cons,
      List.length_append]
    dsimp only
    omega

/-- What is found at the siblings, if at each it is the keys that are not new. -/
theorem countP_flatMap_withEarlier_nil (found : List α → α → List β) (p : β → Bool)
    (keys : α → List κ)
    (h : ∀ before a, (found before a).countP p + ((a :: before).flatMap keys).toFinset.card =
      (keys a).length + (before.flatMap keys).toFinset.card) (siblings : List α) :
    ((withEarlier [] siblings).flatMap fun q => found q.1 q.2).countP p =
      surplus (siblings.flatMap keys) := by
  have hall := countP_flatMap_withEarlier (∅ : Finset κ) found p keys
    (by simpa only [Finset.empty_union] using h) [] siblings
  simp only [Finset.empty_union, List.nil_append, List.flatMap_nil, List.toFinset_nil,
    Finset.card_empty, Nat.add_zero] at hall
  rw [surplus]
  omega

/-- **Repeated siblings.** Where sameness is equality of keys, the siblings that
repeat an earlier one are those beyond one for each of the distinct keys. -/
theorem length_repeated [Identity α] {key : α → κ}
    (h : ∀ a b : α, Identity.sameAs a b = true ↔ key a = key b) (siblings : List α) :
    (repeated siblings).length = surplus (siblings.map key) := by
  have hfound : repeated siblings = (withEarlier [] siblings).flatMap fun q =>
      (if q.1.any fun e => Identity.sameAs e q.2 then some q.2 else none).toList :=
    List.filterMap_eq_flatMap_toList _ _
  rw [hfound, ← List.countP_true, List.map_eq_flatMap]
  refine countP_flatMap_withEarlier_nil (fun before a =>
    (if before.any fun e => Identity.sameAs e a then some a else none).toList) _ _ ?_ siblings
  intro before a
  have hany : (before.any fun e => Identity.sameAs e a) = true ↔
      key a ∈ (before.flatMap fun e => [key e]).toFinset := by
    simp [h, @eq_comm _ (key a)]
  have hone : (if before.any fun e => Identity.sameAs e a then some a else none).toList.countP
      (fun _ => true) = if key a ∈ (before.flatMap fun e => [key e]).toFinset then 1 else 0 := by
    rw [← if_congr hany rfl rfl]
    split_ifs <;> simp
  rw [hone, List.flatMap_cons, List.singleton_append, List.toFinset_cons]
  exact ite_mem_add_card_insert _ _

/-- Siblings known by a name alone, counted by the folded spellings. -/
theorem length_repeated_named [Named α] (siblings : List α) :
    (repeated siblings).length = surplus (siblings.map fun a => Name.fold (Named.name a)) :=
  length_repeated (fun _ _ => sameAs_iff_name) siblings

end Siblings

end LayeredSchema
