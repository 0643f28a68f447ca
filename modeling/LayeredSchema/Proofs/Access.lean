import LayeredSchema.Proofs.Traversal

/-!
# Access by position

A read or a write at a position of a list fails where the list does not reach that far. The
definitions of the library cannot fail in this way: they hold what a position stands for, or
pass over one that is out of range. Where it matters that no position is, a definition is
written out once more with `readAt` and `writeAt`, and shown to come to the same.
-/

namespace LayeredSchema

variable {α : Type}

/-- A position that a list does not reach. -/
structure OutOfRange where
  position : Nat
  length : Nat
deriving DecidableEq

/-- The element at a position. -/
def readAt (l : List α) (i : Nat) : Except OutOfRange α :=
  if h : i < l.length then .ok l[i] else .error ⟨i, l.length⟩

/-- The list with another element at a position. -/
def writeAt (l : List α) (i : Nat) (a : α) : Except OutOfRange (List α) :=
  if i < l.length then .ok (l.set i a) else .error ⟨i, l.length⟩

theorem readAt_of_lt {l : List α} {i : Nat} (h : i < l.length) : readAt l i = .ok l[i] :=
  dif_pos h

theorem ok_bind {ε β : Type} (a : α) (f : α → Except ε β) : (Except.ok a >>= f) = f a := rfl

theorem readAt_eq_ok_iff {l : List α} {i : Nat} {a : α} : readAt l i = .ok a ↔ l[i]? = some a := by
  by_cases h : i < l.length
  · rw [readAt_of_lt h, List.getElem?_eq_getElem h, Except.ok.injEq, Option.some.injEq]
  · simp [readAt, h]

theorem writeAt_of_lt {l : List α} {i : Nat} (h : i < l.length) (a : α) :
    writeAt l i a = .ok (l.set i a) :=
  if_pos h

/-- Writes that are all in range come to what the list has been set to, as none of them changes
how far it reaches. -/
theorem foldlM_writeAt {writes : List (Nat × α)} {l : List α}
    (h : ∀ q ∈ writes, q.1 < l.length) :
    writes.foldlM (fun l q => writeAt l q.1 q.2) l =
      .ok (writes.foldl (fun l q => l.set q.1 q.2) l) := by
  induction writes generalizing l with
  | nil => rfl
  | cons q writes ih =>
    obtain ⟨hq, hrest⟩ := List.forall_mem_cons.mp h
    rw [List.foldlM_cons, writeAt_of_lt hq, ok_bind, List.foldl_cons]
    refine ih fun q hq => ?_
    rw [List.length_set]
    exact hrest q hq

end LayeredSchema
