import LayeredSchema.Identity

/-!
# Siblings

The children of one entity are a list of *siblings*, in the order of their declaration. A name
finds the first sibling that bears it (`named?`, or `position?` for where it stands); a sibling
that is the same as an earlier one is `repeated`; and `modifyFirst?` edits the first sibling
with a property and no other.
-/

namespace LayeredSchema.Siblings

variable {α : Type}

/-- The first sibling with the given name. -/
def named? [Named α] (siblings : List α) (name : String) : Option α :=
  siblings.find? fun sibling => Name.same (Named.name sibling) name

/-- Where the first sibling with the given name stands. -/
def position? [Named α] (siblings : List α) (name : String) : Option (Fin siblings.length) :=
  siblings.findFinIdx? fun sibling => Name.same (Named.name sibling) name

/-- The siblings with the first one that satisfies `p` replaced by `f` of it, and `none` where
no sibling satisfies `p`. -/
def modifyFirst? (p : α → Bool) (f : α → α) : List α → Option (List α)
  | [] => none
  | a :: rest => if p a then some (f a :: rest) else (modifyFirst? p f rest).map (a :: ·)

/-- The siblings with the first one of the given name replaced by `f` of it. -/
def modifyNamed? [Named α] (name : String) (f : α → α) (siblings : List α) : Option (List α) :=
  modifyFirst? (fun sibling => Name.same (Named.name sibling) name) f siblings

/-- Each sibling together with those before it, the nearest first; `before` holds those that
precede the whole list. -/
def withEarlier (before : List α) : List α → List (List α × α)
  | [] => []
  | a :: rest => (before, a) :: withEarlier (a :: before) rest

/-- The siblings that are the same as an earlier one. -/
def repeated [Identity α] (siblings : List α) : List α :=
  (withEarlier [] siblings).filterMap fun (before, sibling) =>
    if before.any fun earlier => Identity.sameAs earlier sibling then some sibling else none

theorem modifyFirst?_isSome {p : α → Bool} {f : α → α} {siblings : List α} :
    (modifyFirst? p f siblings).isSome = siblings.any p := by
  induction siblings with
  | nil => rfl
  | cons a rest ih => by_cases h : p a <;> simp [modifyFirst?, h, ih]

theorem length_modifyFirst? {p : α → Bool} {f : α → α} {siblings edited : List α}
    (h : modifyFirst? p f siblings = some edited) : edited.length = siblings.length := by
  induction siblings generalizing edited with
  | nil => simp [modifyFirst?] at h
  | cons a rest ih =>
    by_cases hp : p a
    · simp only [modifyFirst?, hp, if_true, Option.some.injEq] at h
      simp [← h]
    · simp only [modifyFirst?, hp] at h
      obtain ⟨r, hr, rfl⟩ := Option.map_eq_some_iff.1 h
      simp [ih hr]

end LayeredSchema.Siblings
