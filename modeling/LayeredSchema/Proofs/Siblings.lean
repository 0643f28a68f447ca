import LayeredSchema.Siblings
import Mathlib.Data.List.Pairwise

/-!
# Sameness among siblings

Sameness of entities is symmetric for every kind and, for every kind known by a
key, transitive; it need not be reflexive. This file names the two laws
(`SymmIdentity`, `TransIdentity`), gives them to all keyed kinds, and says what
follows for a list of siblings: which edits `modifyFirst?` makes, when siblings
are pairwise different (`Distinct`), and what of a distinct list is the same as
a given thing (`filter_sameAs`).
-/

namespace LayeredSchema

/-- A kind of which sameness does not depend on the side. -/
class SymmIdentity (α : Type) [Identity α] : Prop where
  symm : ∀ {a b : α}, Identity.sameAs a b → Identity.sameAs b a

/-- A kind of which two things that are the same as a third are the same. -/
class TransIdentity (α : Type) [Identity α] : Prop where
  trans : ∀ {a b c : α}, Identity.sameAs a b → Identity.sameAs b c → Identity.sameAs a c

section Keyed

variable {α κ : Type} [Keyed α κ] [DecidableEq κ]

instance : SymmIdentity α where
  symm h := by
    obtain ⟨k, ha, hb⟩ := sameAs_iff_key.mp h
    exact sameAs_iff_key.mpr ⟨k, hb, ha⟩

instance : TransIdentity α where
  trans hab hbc := by
    obtain ⟨k, ha, hb⟩ := sameAs_iff_key.mp hab
    obtain ⟨k', hb', hc⟩ := sameAs_iff_key.mp hbc
    obtain rfl : k = k' := Option.some.inj (hb.symm.trans hb')
    exact sameAs_iff_key.mpr ⟨k, ha, hc⟩

theorem key_eq_of_sameAs {a b : α} (h : Identity.sameAs a b) :
    (Keyed.key a : Option κ) = Keyed.key b := by
  obtain ⟨k, ha, hb⟩ := sameAs_iff_key.mp h
  exact ha.trans hb.symm

end Keyed

/-- Things that are the same are the same as the same things. -/
theorem sameAs_congr {α : Type} [Identity α] [SymmIdentity α] [TransIdentity α] {a b c : α}
    (h : Identity.sameAs a b) : Identity.sameAs a c ↔ Identity.sameAs b c :=
  ⟨TransIdentity.trans (SymmIdentity.symm h), TransIdentity.trans h⟩

namespace Siblings

variable {α : Type}

/-! ## Editing one sibling -/

/-- An edit changes the first sibling with the property, and no other. -/
theorem modifyFirst?_eq_some {p : α → Bool} {f : α → α} {siblings edited : List α}
    (h : modifyFirst? p f siblings = some edited) :
    ∃ before a after, siblings = before ++ a :: after ∧ (∀ b ∈ before, ¬ p b) ∧ p a ∧
      edited = before ++ f a :: after := by
  induction siblings generalizing edited with
  | nil => simp [modifyFirst?] at h
  | cons a rest ih =>
    unfold modifyFirst? at h
    split at h
    next hp =>
      rw [Option.some.injEq] at h
      exact ⟨[], a, rest, rfl, by simp, hp, h.symm⟩
    next hp =>
      obtain ⟨r, hr, rfl⟩ := Option.map_eq_some_iff.mp h
      obtain ⟨before, b, after, rfl, hbefore, hb, rfl⟩ := ih hr
      refine ⟨a :: before, b, after, rfl, ?_, hb, rfl⟩
      intro c hc
      rcases List.mem_cons.mp hc with rfl | hc
      · exact hp
      · exact hbefore c hc

/-! ## Distinct siblings -/

/-- What stands before a sibling, the nearest first. -/
theorem mem_withEarlier_iff {before siblings : List α} {q : List α × α} :
    q ∈ withEarlier before siblings ↔
      ∃ front back, siblings = front ++ q.2 :: back ∧ q.1 = front.reverse ++ before := by
  induction siblings generalizing before with
  | nil => simp [withEarlier]
  | cons a rest ih =>
    rw [withEarlier, List.mem_cons, ih]
    constructor
    · intro h
      rcases h with rfl | ⟨front, back, rfl, hq⟩
      · exact ⟨[], rest, rfl, rfl⟩
      · exact ⟨a :: front, back, rfl, by rw [hq, List.reverse_cons, List.append_assoc]; rfl⟩
    · intro h
      obtain ⟨front, back, hsplit, hq⟩ := h
      cases front with
      | nil =>
        obtain ⟨rfl, rfl⟩ := List.cons.inj hsplit
        exact .inl (Prod.ext hq rfl)
      | cons first front =>
        obtain ⟨rfl, rfl⟩ := List.cons.inj hsplit
        refine .inr ⟨front, back, rfl, ?_⟩
        rw [hq, List.reverse_cons, List.append_assoc]
        rfl

/-- What holds between each sibling and those before it, counting some that
precede the whole list. -/
theorem forall_withEarlier_iff {R : α → α → Prop} {before siblings : List α} :
    (∀ p ∈ withEarlier before siblings, ∀ e ∈ p.1, R e p.2) ↔
      (∀ e ∈ before, ∀ a ∈ siblings, R e a) ∧ siblings.Pairwise R := by
  induction siblings generalizing before with
  | nil => simp [withEarlier]
  | cons a rest ih =>
    rw [withEarlier, List.forall_mem_cons, ih, List.pairwise_cons]
    simp only [List.forall_mem_cons]
    constructor
    · intro h
      obtain ⟨hbefore, ⟨harest, hrest⟩, hd⟩ := h
      exact ⟨fun e he => ⟨hbefore e he, hrest e he⟩, harest, hd⟩
    · intro h
      obtain ⟨hbefore, harest, hd⟩ := h
      exact ⟨fun e he => (hbefore e he).1, ⟨harest, fun e he => (hbefore e he).2⟩, hd⟩

theorem forall_snd_withEarlier_iff {P : α → Prop} {before siblings : List α} :
    (∀ p ∈ withEarlier before siblings, P p.2) ↔ ∀ a ∈ siblings, P a := by
  induction siblings generalizing before with
  | nil => simp [withEarlier]
  | cons a rest ih => rw [withEarlier, List.forall_mem_cons, ih, List.forall_mem_cons]

/-- Each sibling against those before it, and each pair of siblings. -/
theorem forall_earlier_iff {R : α → α → Prop} {siblings : List α} :
    (∀ p ∈ withEarlier [] siblings, ∀ e ∈ p.1, R e p.2) ↔ siblings.Pairwise R := by
  rw [forall_withEarlier_iff]
  exact and_iff_right fun e he => absurd he List.not_mem_nil

section Distinct

variable [Identity α]

/-- No two siblings are the same. -/
def Distinct (siblings : List α) : Prop :=
  siblings.Pairwise fun a b => ¬ Identity.sameAs a b

instance (siblings : List α) : Decidable (Distinct siblings) :=
  inferInstanceAs (Decidable (siblings.Pairwise fun a b => ¬ Identity.sameAs a b))

theorem Distinct.sublist {siblings some : List α} (h : Distinct siblings)
    (hsub : some.Sublist siblings) : Distinct some :=
  List.Pairwise.sublist hsub h

theorem distinct_cons {a : α} {rest : List α} :
    Distinct (a :: rest) ↔ (∀ b ∈ rest, ¬ Identity.sameAs a b) ∧ Distinct rest :=
  List.pairwise_cons

theorem repeated_eq_nil_iff {siblings : List α} : repeated siblings = [] ↔ Distinct siblings := by
  rw [Distinct, ← forall_earlier_iff, repeated, List.filterMap_eq_nil_iff]
  simp

theorem Distinct.not_sameAs [SymmIdentity α] {siblings : List α} (h : Distinct siblings)
    {a b : α} (ha : a ∈ siblings) (hb : b ∈ siblings) (hne : a ≠ b) :
    ¬ Identity.sameAs a b := by
  have hsymm : Std.Symm fun a b : α => ¬ Identity.sameAs a b :=
    ⟨fun _ _ hab hba => hab (SymmIdentity.symm hba)⟩
  exact List.Pairwise.forall h ha hb hne

/-- Two members of a distinct list that are the same as one thing are one member. -/
theorem Distinct.eq_of_sameAs [SymmIdentity α] [TransIdentity α] {siblings : List α}
    (h : Distinct siblings) {a b c : α} (ha : a ∈ siblings) (hb : b ∈ siblings)
    (hca : Identity.sameAs c a) (hcb : Identity.sameAs c b) : a = b := by
  by_contra hne
  exact h.not_sameAs ha hb hne (TransIdentity.trans (SymmIdentity.symm hca) hcb)

/-- Of a distinct list, at most one sibling is the same as a given thing. -/
theorem filter_sameAs [SymmIdentity α] [TransIdentity α] {siblings : List α}
    (h : Distinct siblings) (b : α) :
    (siblings.filter (Identity.sameAs b) = [] ∧ ∀ a ∈ siblings, ¬ Identity.sameAs b a) ∨
    ∃ a ∈ siblings, Identity.sameAs b a ∧ siblings.filter (Identity.sameAs b) = [a] := by
  cases hf : siblings.filter (Identity.sameAs b) with
  | nil =>
    refine .inl ⟨rfl, fun a ha hba => ?_⟩
    exact List.filter_eq_nil_iff.mp hf a ha hba
  | cons a rest =>
    have ha : a ∈ siblings.filter (Identity.sameAs b) := hf ▸ List.mem_cons_self
    obtain ⟨ha, hba⟩ := List.mem_filter.mp ha
    refine .inr ⟨a, ha, hba, ?_⟩
    have hd : Distinct (a :: rest) := hf ▸ h.sublist List.filter_sublist
    cases rest with
    | nil => rfl
    | cons c rest =>
      have hc : c ∈ siblings.filter (Identity.sameAs b) := by simp [hf]
      have hac := TransIdentity.trans (SymmIdentity.symm hba) (List.mem_filter.mp hc).2
      exact absurd hac ((distinct_cons.mp hd).1 c List.mem_cons_self)

end Distinct

/-! ## Siblings by name -/

section Named

variable [Named α]

theorem named?_eq_some {siblings : List α} {name : String} {a : α}
    (h : named? siblings name = some a) :
    a ∈ siblings ∧ Name.fold (Named.name a) = Name.fold name := by
  have hsame := List.find?_some h
  exact ⟨List.mem_of_find?_eq_some h, Name.same_iff.mp hsame⟩

theorem isSome_named?_iff {siblings : List α} {name : String} :
    (named? siblings name).isSome ↔
      ∃ a ∈ siblings, Name.fold (Named.name a) = Name.fold name := by
  simp only [named?, List.find?_isSome, Name.same_iff]

theorem named?_cons {a : α} {rest : List α} {name : String} :
    named? (a :: rest) name =
      if Name.fold (Named.name a) = Name.fold name then some a else named? rest name := by
  unfold named?
  rw [List.find?_cons]
  by_cases h : Name.fold (Named.name a) = Name.fold name
  · rw [if_pos h, Name.same_iff.mpr h]
  · rw [if_neg h]
    rw [← Name.same_iff, Bool.not_eq_true] at h
    rw [h]

/-- Siblings with names are distinct if no two names are spellings of one. -/
theorem distinct_iff_nodup {siblings : List α} :
    Distinct siblings ↔ (siblings.map fun a => Name.fold (Named.name a)).Nodup := by
  rw [List.Nodup, List.pairwise_map]
  exact List.Pairwise.iff fun a b => not_congr sameAs_iff_name

theorem named?_filter {siblings : List α} {name : String} {p : α → Bool}
    (h : ∀ a ∈ siblings, Name.fold (Named.name a) = Name.fold name → p a) :
    named? (siblings.filter p) name = named? siblings name := by
  induction siblings with
  | nil => rfl
  | cons a rest ih =>
    have hrest := ih fun b hb => h b (List.mem_cons_of_mem _ hb)
    by_cases hp : p a
    · rw [List.filter_cons_of_pos hp, named?_cons, named?_cons, hrest]
    · have hname : ¬ Name.fold (Named.name a) = Name.fold name := fun hname =>
        hp (h a List.mem_cons_self hname)
      rw [List.filter_cons_of_neg hp, named?_cons, if_neg hname, hrest]

/-- A sibling of a distinct list is found by its name. -/
theorem named?_of_mem {siblings : List α} (h : Distinct siblings) {a : α} (ha : a ∈ siblings)
    {name : String} (hname : Name.fold (Named.name a) = Name.fold name) :
    named? siblings name = some a := by
  cases hf : named? siblings name with
  | none =>
    have hsome := isSome_named?_iff.mpr ⟨a, ha, hname⟩
    rw [hf] at hsome
    exact absurd hsome (by simp)
  | some b =>
    obtain ⟨hb, hbname⟩ := named?_eq_some hf
    have haa : Identity.sameAs a a := sameAs_iff_name.mpr rfl
    have hab : Identity.sameAs a b := sameAs_iff_name.mpr (hname.trans hbname.symm)
    rw [h.eq_of_sameAs ha hb haa hab]

/-- What a name finds stands where the name is found. -/
theorem named?_eq_map_position? (siblings : List α) (name : String) :
    named? siblings name = (position? siblings name).map siblings.get := by
  cases hp : position? siblings name with
  | none =>
    have hnot := List.findFinIdx?_eq_none_iff.mp hp
    exact List.find?_eq_none.mpr hnot
  | some i =>
    obtain ⟨hi, hbefore⟩ := List.findFinIdx?_eq_some_iff.mp hp
    refine List.find?_eq_some_iff_getElem.mpr ⟨hi, i.val, i.isLt, rfl, fun j hj => ?_⟩
    simpa using hbefore ⟨j, Nat.lt_trans hj i.isLt⟩ hj

/-- A sibling of a distinct list is found in its place, by every spelling of its name and by
no other name. -/
theorem position?_eq_some_iff {siblings : List α} (h : Distinct siblings)
    {i : Fin siblings.length} {name : String} :
    position? siblings name = some i ↔ Name.same (Named.name (siblings.get i)) name := by
  constructor
  · intro hfound
    exact (List.findFinIdx?_eq_some_iff.mp hfound).1
  · intro hname
    refine List.findFinIdx?_eq_some_iff.mpr ⟨hname, fun j hj hsame => ?_⟩
    have hji : ¬ Identity.sameAs siblings[j] siblings[i] :=
      List.pairwise_iff_getElem.mp h j i j.isLt i.isLt hj
    have hnames := (Name.same_iff.mp hsame).trans (Name.same_iff.mp hname).symm
    exact hji (sameAs_iff_name.mpr hnames)

end Named

end Siblings

end LayeredSchema
