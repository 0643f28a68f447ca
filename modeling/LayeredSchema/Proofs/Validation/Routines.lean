import LayeredSchema.Proofs.Reference.Rearrangement
import LayeredSchema.Proofs.Validation.Count

/-!
# Routines that are declared twice

A body declares its routine for one dialect, so that what counts is the pair of the two, with
the routine taken up to its signature (`SignatureClass`). The check of a schema finds a pair
that was declared before in two ways, in the routine itself and in those before it, and skips
the second once the first has found something. The number of its reports is still that of the
declarations less the distinct pairs (`duplicateRoutine_counted`).

Such a number knows no order. Nor does it matter to it that sameness of routines is neither
reflexive nor transitive: it is zero if no pair is declared twice, which is to say in one
routine or in two that are the same.
-/

namespace LayeredSchema

open Violation (tally)

namespace Routine

/-! ## Signatures -/

/-- Routines of one signature, as `sameSignature` tells. -/
def signatures : Setoid Routine where
  r a b := a.sameSignature b
  iseqv := by
    constructor
    · intro a
      exact sameSignature_iff.mpr rfl
    · intro a b hab
      exact sameSignature_iff.mpr (sameSignature_iff.mp hab).symm
    · intro a b c hab hbc
      exact sameSignature_iff.mpr ((sameSignature_iff.mp hab).trans (sameSignature_iff.mp hbc))

/-- A signature, whatever the case of its names. -/
def SignatureClass : Type := Quotient signatures

instance : DecidableEq SignatureClass :=
  @Quotient.decidableEq Routine signatures fun a b =>
    inferInstanceAs (Decidable (a.sameSignature b = true))

/-- The signature of a routine. -/
def signatureClass (r : Routine) : SignatureClass := Quotient.mk signatures r

theorem signatureClass_eq_iff {a b : Routine} :
    a.signatureClass = b.signatureClass ↔ a.sameSignature b :=
  Quotient.eq (r := signatures)

/-- What tells signatures apart. -/
def SignatureClass.key : SignatureClass → String × List (String × String × Direction) :=
  Quotient.lift signatureKey fun _ _ h => sameSignature_iff.mp h

theorem SignatureClass.key_injective : Function.Injective SignatureClass.key := by
  intro a b
  induction a using Quotient.inductionOn
  induction b using Quotient.inductionOn
  intro h
  exact Quotient.sound (sameSignature_iff.mpr h)

/-! ## Declarations -/

/-- The dialects that the bodies of a routine declare, one for each body that declares one. -/
def dialects (r : Routine) : List Dialect := r.bodies.filterMap Body.dialect

/-- What the bodies of a routine declare. -/
def declarations (r : Routine) : List (SignatureClass × Dialect) :=
  r.dialects.map fun dialect => (r.signatureClass, dialect)

theorem mem_dialects_iff {r : Routine} {dialect : Dialect} :
    dialect ∈ r.dialects ↔ r.Speaks dialect := by
  simp [dialects, Speaks]

theorem declared_eq_map_declarations (r : Routine) :
    r.declared = r.declarations.map (Prod.map SignatureClass.key id) := by
  unfold declared declarations dialects
  induction r.bodies with
  | nil => rfl
  | cons body rest ih =>
    rw [List.map_cons, List.flatMap_cons, ih]
    cases hdialect : body.dialect with
    | none => simp [declaredFor, hdialect]
    | some spoken =>
      simp [declaredFor, hdialect]
      rfl

theorem nodup_declarations_iff {r : Routine} : r.declarations.Nodup ↔ r.dialects.Nodup :=
  List.nodup_map_iff fun _ _ h => (Prod.mk.inj h).2

/-- Two routines declare something in common exactly if they are the same. -/
theorem disjoint_declarations_iff {a b : Routine} :
    a.declarations.Disjoint b.declarations ↔ ¬ Identity.sameAs a b := by
  have hsame : Identity.sameAs a b ↔ ∃ p, p ∈ a.declarations ∧ p ∈ b.declarations := by
    rw [sameAs_routine_iff, ← sameSignature_iff, ← signatureClass_eq_iff]
    simp only [declarations, List.mem_map, mem_dialects_iff]
    constructor
    · intro h
      obtain ⟨hsig, dialect, ha, hb⟩ := h
      exact ⟨_, ⟨dialect, ha, rfl⟩, dialect, hb, by rw [hsig]⟩
    · intro h
      obtain ⟨_, ⟨dialect, ha, rfl⟩, dialect', hb, heq⟩ := h
      obtain ⟨hsig, rfl⟩ := Prod.mk.inj heq
      exact ⟨hsig.symm, dialect', ha, hb⟩
  rw [hsame, not_exists]
  exact forall_congr' fun p => not_and.symm

/-- The routine with its bodies in another order. -/
structure Rearranges (r q : Routine) : Prop where
  bodies : r.bodies.Perm q.bodies
  rest : q = { r with bodies := q.bodies }

theorem Rearranges.declarations_perm {r q : Routine} (h : r.Rearranges q) :
    r.declarations.Perm q.declarations := by
  have hclass : q.signatureClass = r.signatureClass := by
    rw [signatureClass_eq_iff, sameSignature_iff, h.rest]
    rfl
  unfold declarations
  rw [hclass]
  exact (h.bodies.filterMap _).map _

end Routine

namespace Schema

/-- What the bodies of all routines of a schema declare. -/
def declarations (s : Schema) : List (Routine.SignatureClass × Dialect) :=
  s.routines.flatMap Routine.declarations

theorem length_declarations (s : Schema) : s.declarations.length =
    (s.routines.map fun r => r.bodies.countP fun body => body.dialect.isSome).sum := by
  unfold declarations
  rw [List.length_flatMap]
  congr 1
  refine List.map_congr_left fun r _ => ?_
  rw [Routine.declarations, List.length_map, Routine.dialects,
    List.length_filterMap_eq_countP]

theorem tally_duplicateRoutine (s : Schema) :
    tally .duplicateRoutine s.violations = surplus s.declarations := by
  have hrenamed : s.routines.flatMap Routine.declared =
      s.declarations.map (Prod.map Routine.SignatureClass.key id) := by
    rw [declarations, List.map_flatMap]
    exact List.flatMap_congr fun r _ => r.declared_eq_map_declarations
  have hid : Function.Injective (id : Dialect → Dialect) := Function.injective_id
  have hinjective := Routine.SignatureClass.key_injective.prodMap hid
  rw [tally_violations, count, hrenamed, surplus_map_of_injective hinjective]

theorem declarations_perm {s s' : Schema}
    (h : Rearranged Routine.Rearranges s.routines s'.routines) :
    s.declarations.Perm s'.declarations := by
  obtain ⟨between, hchanged, hperm⟩ := h
  have hsame : s.declarations.Perm (between.flatMap Routine.declarations) := by
    unfold declarations
    clear hperm
    generalize s.routines = routines at hchanged ⊢
    induction hchanged with
    | nil => exact .refl _
    | cons hrq hrest ih =>
      rw [List.flatMap_cons, List.flatMap_cons]
      exact hrq.declarations_perm.append ih
  exact hsame.trans (hperm.flatMap_right _)

/-- No pair is declared twice exactly if none is in one routine, nor in two of them. -/
theorem nodup_declarations_iff {s : Schema} :
    s.declarations.Nodup ↔ (∀ r ∈ s.routines, r.dialects.Nodup) ∧
      ∀ i j : Fin s.routines.length, i ≠ j →
        ¬ Identity.sameAs (s.routines.get i) (s.routines.get j) := by
  have hpairs : s.routines.Pairwise (fun a b => a.declarations.Disjoint b.declarations) ↔
      ∀ i j : Fin s.routines.length, i ≠ j →
        ¬ Identity.sameAs (s.routines.get i) (s.routines.get j) := by
    simp only [Routine.disjoint_declarations_iff]
    rw [List.pairwise_iff_get]
    constructor
    · intro h i j hij hsame
      -- sameness is symmetric, so that it does not matter which of the two comes first
      rcases Nat.lt_or_gt_of_ne (Fin.val_ne_of_ne hij) with hlt | hgt
      · exact h i j hlt hsame
      · exact h j i hgt (SymmIdentity.symm hsame)
    · intro h i j hlt
      exact h i j (Fin.ne_of_lt hlt)
  rw [declarations, List.nodup_flatMap, ← hpairs]
  simp only [Routine.nodup_declarations_iff]

/-- **Repeated routines.** The reports of them and the distinct pairs of a signature and a
dialect that are declared come to the number of the bodies that declare a dialect. So they do
not depend on the order of the routines or of their bodies, and there are none exactly if no
routine declares a dialect twice and no two of them are the same. -/
theorem duplicateRoutine_counted (s : Schema) :
    tally .duplicateRoutine s.violations + s.declarations.toFinset.card =
      (s.routines.map fun r => r.bodies.countP fun body => body.dialect.isSome).sum ∧
    (∀ s' : Schema, Rearranged Routine.Rearranges s.routines s'.routines →
      tally .duplicateRoutine s'.violations = tally .duplicateRoutine s.violations) ∧
    (tally .duplicateRoutine s.violations = 0 ↔
      (∀ r ∈ s.routines, r.dialects.Nodup) ∧
      ∀ i j : Fin s.routines.length, i ≠ j →
        ¬ Identity.sameAs (s.routines.get i) (s.routines.get j)) := by
  refine ⟨?_, ?_, ?_⟩
  · rw [tally_duplicateRoutine, surplus_add_card, length_declarations]
  · intro s' h
    rw [tally_duplicateRoutine, tally_duplicateRoutine, surplus_perm (declarations_perm h)]
  · rw [tally_duplicateRoutine, surplus_eq_zero_iff, nodup_declarations_iff]

/-- One signature, in three dialects. The first routine declares a dialect twice, the second
shares one with the first only, and the last does both. -/
def overloaded : Schema where
  name := "app"
  routines := [
    { name := "total", bodies := [{ dialect := some .pgsql8, text := "1" },
      { dialect := some .mssql10, text := "2" }, { dialect := some .pgsql8, text := "3" }] },
    { name := "TOTAL", bodies := [{ dialect := some .mssql10, text := "4" },
      { dialect := some .mysql5, text := "5" }, { text := "6" }] },
    { name := "total", bodies := [{ dialect := some .mysql5, text := "7" },
      { dialect := some .mysql5, text := "8" }] }]

/-- The schema with its routines and their bodies in reverse. -/
def reverseRoutines (s : Schema) : Schema :=
  { s with routines := (s.routines.map fun r => { r with bodies := r.bodies.reverse }).reverse }

theorem rearranged_reverseRoutines (s : Schema) :
    Rearranged Routine.Rearranges s.routines s.reverseRoutines.routines := by
  refine ⟨_, List.forall₂_map_right_iff.mpr (List.forall₂_same.mpr ?_),
    (List.reverse_perm _).symm⟩
  intro r _
  exact ⟨(List.reverse_perm _).symm, rfl⟩

theorem duplicateRoutine_counted_overloaded :
    tally .duplicateRoutine overloaded.violations = 4 ∧
    overloaded.declarations.toFinset.card = 3 ∧
    tally .duplicateRoutine overloaded.reverseRoutines.violations = 4 ∧
    ∃ i j : Fin overloaded.routines.length, i ≠ j ∧
      Identity.sameAs (overloaded.routines.get i) (overloaded.routines.get j) := by
  obtain ⟨hcount, horder, -⟩ := duplicateRoutine_counted overloaded
  have hfour : tally .duplicateRoutine overloaded.violations = 4 := by decide +kernel
  refine ⟨hfour, ?_, ?_, ?_⟩
  · have hseven : (overloaded.routines.map fun r =>
        r.bodies.countP fun body => body.dialect.isSome).sum = 7 := by decide
    omega
  · rw [horder _ (rearranged_reverseRoutines overloaded), hfour]
  · exact ⟨⟨0, by decide⟩, ⟨1, by decide⟩, by decide, by decide +kernel⟩

end Schema

end LayeredSchema
