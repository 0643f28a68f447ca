import LayeredSchema.Vocabulary

/-!
# Sameness of entities

Two questions are asked about a pair of entities. `Identity.sameAs` asks whether they are the
same thing, declared twice: it picks what a layer lands on and finds duplicates.
`Comparable.equalFor` asks whether they come to the same thing for one dialect, so that
nothing would have to be migrated.

Most kinds have a *key* (`Keyed`), a value that the thing is known by; two entities are the
same when both have a key and the keys are equal. An entity without one is the same as
nothing, itself included. The kinds known by a name alone are `Named`.
-/

namespace LayeredSchema

/-- Whether two declarations denote the same entity. -/
class Identity (α : Type) where
  sameAs : α → α → Bool

/-- A kind of entity known by a key. -/
class Keyed (α : Type) (κ : outParam Type) where
  key : α → Option κ

/-- A kind of entity known by its name alone. -/
class Named (α : Type) where
  name : α → String

/-- Whether two declarations come to the same thing for a dialect. -/
class Comparable (α : Type) where
  equalFor : Dialect → α → α → Bool

instance {α : Type} [Named α] : Keyed α String where
  key a := some (Name.fold (Named.name a))

/-- Whether both keys are there and equal. -/
def sameKey {κ : Type} [DecidableEq κ] : Option κ → Option κ → Bool
  | some a, some b => decide (a = b)
  | _, _ => false

instance {α κ : Type} [Keyed α κ] [DecidableEq κ] : Identity α where
  sameAs a b := sameKey (Keyed.key a) (Keyed.key b)

/-- Whether a relation holds between two things that may be absent; it never holds of an
absent one. -/
def bothPresent {α : Type} (related : α → α → Bool) : Option α → Option α → Bool
  | some a, some b => related a b
  | _, _ => false

/-- Whether a relation holds between two things that may be absent, where two absent ones
agree. -/
def agreeOption {α : Type} (related : α → α → Bool) : Option α → Option α → Bool
  | some a, some b => related a b
  | none, none => true
  | _, _ => false

/-- Whether a relation holds between two lists of one length, position by position. -/
def agreeList {α : Type} (related : α → α → Bool) : List α → List α → Bool
  | [], [] => true
  | a :: as, b :: bs => related a b && agreeList related as bs
  | _, _ => false

theorem sameKey_iff {κ : Type} [DecidableEq κ] {a b : Option κ} :
    sameKey a b = true ↔ ∃ k, a = some k ∧ b = some k := by
  cases a <;> cases b <;> simp [sameKey, eq_comm]

theorem sameAs_iff_key {α κ : Type} [Keyed α κ] [DecidableEq κ] {a b : α} :
    Identity.sameAs a b = true ↔ ∃ k, Keyed.key a = some k ∧ Keyed.key b = some k :=
  sameKey_iff

theorem sameAs_iff_name {α : Type} [Named α] {a b : α} :
    Identity.sameAs a b = true ↔ Name.fold (Named.name a) = Name.fold (Named.name b) := by
  rw [sameAs_iff_key]
  simp only [Keyed.key, Option.some.injEq]
  exact ⟨fun ⟨_, ha, hb⟩ => ha.trans hb.symm, fun h => ⟨_, h, rfl⟩⟩

theorem agreeOption_iff {α κ : Type} {related : α → α → Bool} {key : α → κ}
    (h : ∀ a b, related a b = true ↔ key a = key b) {a b : Option α} :
    agreeOption related a b = true ↔ a.map key = b.map key := by
  cases a <;> cases b <;> simp [agreeOption, h]

theorem agreeList_iff {α κ : Type} {related : α → α → Bool} {key : α → κ}
    (h : ∀ a b, related a b = true ↔ key a = key b) {as bs : List α} :
    agreeList related as bs = true ↔ as.map key = bs.map key := by
  induction as generalizing bs with
  | nil => cases bs <;> simp [agreeList]
  | cons a as ih =>
    cases bs with
    | nil => simp [agreeList]
    | cons b bs => simp [agreeList, ih, h]

end LayeredSchema
