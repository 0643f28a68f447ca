import Mathlib.Data.List.Forall2

/-!
# Computations that may fail

References are followed in `Except`, one after another. The lemmas here say
when such a computation succeeds, so that later files never unfold a `do`
block: a sequence succeeds if both of its halves do (`bind_eq_ok_iff`), and a
traversal if the function succeeds on every element (`mapM_eq_ok_iff`). A traversal
that fails has met a `FirstFailure`.
-/

namespace LayeredSchema

variable {ε α β γ : Type}

theorem bind_eq_ok_iff {x : Except ε α} {f : α → Except ε β} {b : β} :
    (x >>= f) = .ok b ↔ ∃ a, x = .ok a ∧ f a = .ok b := by
  cases x with
  | error e => simp [bind, Except.bind]
  | ok a => simp [bind, Except.bind]

theorem bind_eq_error_iff {x : Except ε α} {f : α → Except ε β} {e : ε} :
    (x >>= f) = .error e ↔ x = .error e ∨ ∃ a, x = .ok a ∧ f a = .error e := by
  cases x with
  | error e => simp [bind, Except.bind]
  | ok a => simp [bind, Except.bind]

theorem mapError_eq_ok_iff {ε' : Type} {x : Except ε α} {f : ε → ε'} {a : α} :
    x.mapError f = .ok a ↔ x = .ok a := by
  cases x with
  | error e => simp [Except.mapError]
  | ok a => simp [Except.mapError]

theorem mapError_eq_error_iff {ε' : Type} {x : Except ε α} {f : ε → ε'} {e' : ε'} :
    x.mapError f = .error e' ↔ ∃ e, x = .error e ∧ f e = e' := by
  cases x with
  | error e => simp [Except.mapError]
  | ok a => simp [Except.mapError]

theorem map_eq_ok_iff {f : α → β} {x : Except ε α} {b : β} :
    x.map f = .ok b ↔ ∃ a, x = .ok a ∧ f a = b := by
  cases x with
  | error e => simp [Except.map]
  | ok a => simp [Except.map]

theorem map_eq_error_iff {f : α → β} {x : Except ε α} {e : ε} :
    x.map f = .error e ↔ x = .error e := by
  cases x with
  | error e => simp [Except.map]
  | ok a => simp [Except.map]

theorem exists_ok_iff {x : Except ε α} : (∃ a, x = .ok a) ↔ ∀ e, x ≠ .error e := by
  cases x with
  | error e => simp
  | ok a => simp

theorem eq_ok_of_toOption {x : Except ε α} {a : α} (h : x.toOption = some a) : x = .ok a := by
  cases x with
  | error e => simp [Except.toOption] at h
  | ok b =>
    simp only [Except.toOption, Option.some.injEq] at h
    rw [h]

/-- A traversal succeeds exactly if the function does on every element, and
then lists what it answered. -/
theorem mapM_eq_ok_iff {f : α → Except ε β} {l : List α} {ys : List β} :
    l.mapM f = .ok ys ↔ List.Forall₂ (fun a b => f a = .ok b) l ys := by
  induction l generalizing ys with
  | nil =>
    rw [List.mapM_nil, List.forall₂_nil_left_iff]
    simp [pure, Except.pure, eq_comm]
  | cons a l ih =>
    rw [List.mapM_cons, bind_eq_ok_iff, List.forall₂_cons_left_iff]
    constructor
    · intro h
      obtain ⟨b, hb, hrest⟩ := h
      obtain ⟨bs, hbs, hys⟩ := bind_eq_ok_iff.mp hrest
      refine ⟨b, bs, hb, ih.mp hbs, ?_⟩
      simpa [pure, Except.pure, eq_comm] using hys
    · intro h
      obtain ⟨b, bs, hb, hbs, rfl⟩ := h
      exact ⟨b, hb, bind_eq_ok_iff.mpr ⟨bs, ih.mpr hbs, rfl⟩⟩

/-- Where every element is related to something, the list is related to a list. -/
theorem exists_forall₂ {R : α → β → Prop} {l : List α} (h : ∀ a ∈ l, ∃ b, R a b) :
    ∃ ys, List.Forall₂ R l ys := by
  induction l with
  | nil => exact ⟨[], .nil⟩
  | cons a l ih =>
    obtain ⟨b, hb⟩ := h a List.mem_cons_self
    obtain ⟨ys, hys⟩ := ih fun c hc => h c (List.mem_cons_of_mem a hc)
    exact ⟨b :: ys, .cons hb hys⟩

/-- In related lists, every element is related to one of the other list. -/
theorem exists_of_forall₂ {R : α → β → Prop} {l : List α} {ys : List β}
    (h : List.Forall₂ R l ys) {a : α} (ha : a ∈ l) : ∃ b ∈ ys, R a b := by
  induction h with
  | nil => exact absurd ha List.not_mem_nil
  | cons hab hrest ih =>
    rcases List.mem_cons.mp ha with rfl | ha
    · exact ⟨_, List.mem_cons_self, hab⟩
    · obtain ⟨b, hb, hab⟩ := ih ha
      exact ⟨b, List.mem_cons_of_mem _ hb, hab⟩

/-- One element is replaced by another one that is related to the same. -/
theorem forall₂_set {R : α → β → Prop} {l : List α} {ys : List β} (h : List.Forall₂ R l ys)
    {i : Nat} {a a' : α} (ha : l[i]? = some a) (himp : ∀ b, R a b → R a' b) :
    List.Forall₂ R (l.set i a') ys := by
  induction h generalizing i with
  | nil => cases ha
  | cons hab hrest ih =>
    cases i with
    | zero =>
      obtain rfl := Option.some.inj ha
      exact .cons (himp _ hab) hrest
    | succ i => exact .cons hab (ih ha)

/-- A successful traversal lists what the function answers on the elements. -/
theorem mem_of_mapM_eq_ok {f : α → Except ε β} {l : List α} {ys : List β}
    (h : l.mapM f = .ok ys) {b : β} : b ∈ ys ↔ ∃ a ∈ l, f a = .ok b := by
  have hall := mapM_eq_ok_iff.mp h
  clear h
  induction hall with
  | nil => simp
  | cons hab hrest ih =>
    rw [List.mem_cons]
    constructor
    · intro h
      rcases h with rfl | hb
      · exact ⟨_, List.mem_cons_self, hab⟩
      · obtain ⟨a, ha, hfa⟩ := ih.mp hb
        exact ⟨a, List.mem_cons_of_mem _ ha, hfa⟩
    · intro h
      obtain ⟨a, ha, hfa⟩ := h
      rcases List.mem_cons.mp ha with rfl | ha
      · rw [hab, Except.ok.injEq] at hfa
        exact .inl hfa.symm
      · exact .inr (ih.mpr ⟨a, ha, hfa⟩)

/-- A successful traversal has an answer for every element. -/
theorem exists_of_mapM_eq_ok {f : α → Except ε β} {l : List α} {ys : List β}
    (h : l.mapM f = .ok ys) : ∀ a ∈ l, ∃ b ∈ ys, f a = .ok b :=
  fun _ ha => exists_of_forall₂ (mapM_eq_ok_iff.mp h) ha

/-- A table of answers, looked up at one of the elements it was made for. -/
theorem lookup_of_mapM_eq_ok [DecidableEq α] {f : α → Except ε β} {l : List α}
    {table : List (α × β)} (h : (l.mapM fun a => do return (a, ← f a)) = .ok table) :
    ∀ a ∈ l, ∃ b, f a = .ok b ∧ table.lookup a = some b := by
  have hall := mapM_eq_ok_iff.mp h
  clear h
  induction hall with
  | nil => simp
  | @cons a entry l table hentry hrest ih =>
    obtain ⟨b, hb, hpure⟩ := bind_eq_ok_iff.mp hentry
    obtain rfl : (a, b) = entry := by simpa [pure, Except.pure] using hpure
    intro a' ha'
    by_cases heq : a' = a
    · -- the first entry is the one that a lookup finds
      subst heq
      exact ⟨b, hb, List.lookup_cons_self⟩
    · obtain ⟨b', hb', hlook⟩ := ih a' ((List.mem_cons.mp ha').resolve_left heq)
      refine ⟨b', hb', ?_⟩
      rw [List.lookup_cons, show (a' == a) = false by simpa using heq]
      exact hlook

/-! ## The first failure -/

/-- The failure of the first element on which a function fails. -/
def FirstFailure (f : α → Except ε β) (l : List α) (e : ε) : Prop :=
  ∃ before a after, l = before ++ a :: after ∧ (∀ b ∈ before, ∃ y, f b = .ok y) ∧ f a = .error e

section FirstFailure

variable {f : α → Except ε β} {l : List α} {e : ε}

theorem firstFailure_cons {a : α} : FirstFailure f (a :: l) e ↔
    f a = .error e ∨ (∃ y, f a = .ok y) ∧ FirstFailure f l e := by
  constructor
  · intro h
    obtain ⟨before, b, after, hl, hbefore, hb⟩ := h
    cases before with
    | nil =>
      obtain ⟨rfl, -⟩ := List.cons.inj hl
      exact .inl hb
    | cons c before =>
      obtain ⟨rfl, hrest⟩ := List.cons.inj hl
      obtain ⟨ha, hbefore⟩ := List.forall_mem_cons.mp hbefore
      exact .inr ⟨ha, before, b, after, hrest, hbefore, hb⟩
  · intro h
    rcases h with ha | ⟨ha, before, b, after, rfl, hbefore, hb⟩
    · exact ⟨[], a, l, rfl, fun _ hb => absurd hb List.not_mem_nil, ha⟩
    · exact ⟨a :: before, b, after, rfl, List.forall_mem_cons.mpr ⟨ha, hbefore⟩, hb⟩

/-- A traversal fails exactly as the function does on the first element where it fails. -/
theorem mapM_eq_error_iff : l.mapM f = .error e ↔ FirstFailure f l e := by
  induction l with
  | nil => simp [FirstFailure, pure, Except.pure]
  | cons a l ih =>
    rw [List.mapM_cons, bind_eq_error_iff, firstFailure_cons, ← ih]
    refine or_congr_right ?_
    simp [bind_eq_error_iff, pure, Except.pure]

/-- Functions that fail alike have the same first failure. -/
theorem firstFailure_congr {g : α → Except ε γ} (h : ∀ a e, f a = .error e ↔ g a = .error e) :
    FirstFailure f l e ↔ FirstFailure g l e := by
  simp only [FirstFailure, exists_ok_iff, ne_eq, h]

/-- The elements of a list of lists are traversed in the order of the lists. -/
theorem firstFailure_flatMap {parts : γ → List α} {l : List γ} :
    FirstFailure f (l.flatMap parts) e ↔ FirstFailure (fun c => (parts c).mapM f) l e := by
  rw [← mapM_eq_error_iff, ← mapM_eq_error_iff]
  induction l with
  | nil => simp [pure, Except.pure]
  | cons c l ih =>
    rw [List.flatMap_cons, List.mapM_append, List.mapM_cons, bind_eq_error_iff,
      bind_eq_error_iff]
    simp [bind_eq_error_iff, pure, Except.pure, ih]

/-- A pass that asks the function at every element fails as the traversal does. -/
theorem foldlM_eq_error_iff {σ : Type} {add : σ → α → β → σ} {s : σ} :
    (l.foldlM (fun s a => do return add s a (← f a)) s = .error e) ↔ FirstFailure f l e := by
  induction l generalizing s with
  | nil => simp [FirstFailure, pure, Except.pure]
  | cons a l ih =>
    rw [List.foldlM_cons, bind_eq_error_iff, firstFailure_cons]
    simp only [ih, bind_eq_error_iff, bind_eq_ok_iff]
    simp [pure, Except.pure]

end FirstFailure

end LayeredSchema
