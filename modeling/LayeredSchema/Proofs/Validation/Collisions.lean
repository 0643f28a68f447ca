import LayeredSchema.Proofs.Validation.Rules
import Mathlib.Data.List.Forall2

/-!
# Routines that collide

Two routines of a schema collide for a dialect if both have a body for it and they agree in
name and in their parameters, one by one: in the name of each, in its type, and in its
direction (`Routine.Collide`). The check of a schema compares a body only with the bodies
before it and the routines before its own, and skips the routines once it has found another
body for the dialect. `Definition.collisions_reported` says that it misses no pair that
collides, wherever the two stand, and finds no other.

Agreement in the types alone is less than that, although the types are all that the text of a
signature shows. Routines whose parameters differ in a name only, or in a direction only, stand
side by side, and nothing is reported (`Definition.homonyms_unreported`).
-/

namespace LayeredSchema

open Siblings (withEarlier)
open Violation (Cause Code Unreported)

/-- Lists that agree position by position, in terms of what it is to agree at one of them. -/
theorem agreeList_iff_forall₂ {α : Type} {related : α → α → Bool} {R : α → α → Prop}
    (h : ∀ a b, related a b ↔ R a b) {as bs : List α} :
    agreeList related as bs ↔ List.Forall₂ R as bs := by
  induction as generalizing bs with
  | nil => cases bs <;> simp [agreeList]
  | cons a as ih =>
    cases bs with
    | nil => simp [agreeList]
    | cons b bs => rw [agreeList, Bool.and_eq_true, List.forall₂_cons, h, ih]

namespace Routine

/-- Two parameters agree in name and type, up to case, and in direction. -/
structure Parameter.Agree (p q : Parameter) : Prop where
  name : Name.same p.name q.name
  type : Name.same p.type q.type
  direction : p.direction = q.direction

/-- Two routines of one name, with parameters that agree one by one, that have bodies for a
common dialect. -/
structure Collide (dialect : Dialect) (a b : Routine) : Prop where
  name : Name.same a.name b.name
  parameters : List.Forall₂ Parameter.Agree a.parameters b.parameters
  first : a.Speaks dialect
  second : b.Speaks dialect

variable {a b r : Routine} {before : List Routine} {seen : List (Option Dialect)}
  {dialect : Option Dialect} {spoken : Dialect}

theorem Parameter.same_iff_agree {p q : Parameter} : Parameter.same p q ↔ p.Agree q := by
  unfold Parameter.same
  rw [Bool.and_eq_true, Bool.and_eq_true, beq_iff_eq]
  exact ⟨fun ⟨⟨hn, ht⟩, hd⟩ => ⟨hn, ht, hd⟩, fun ⟨hn, ht, hd⟩ => ⟨⟨hn, ht⟩, hd⟩⟩

theorem collide_iff : Collide spoken a b ↔
    a.sameSignature b ∧ a.Speaks spoken ∧ b.Speaks spoken := by
  unfold sameSignature
  rw [Bool.and_eq_true, agreeList_iff_forall₂ fun _ _ => Parameter.same_iff_agree]
  exact ⟨fun ⟨hn, hp, ha, hb⟩ => ⟨⟨hn, hp⟩, ha, hb⟩, fun ⟨⟨hn, hp⟩, ha, hb⟩ => ⟨hn, hp, ha, hb⟩⟩

/-- The first body for a dialect is the one that earlier routines are reported at. -/
theorem bodyCause?_eq_routineRepeated_iff :
    r.bodyCause? before seen dialect = some (.routineRepeated spoken) ↔
      dialect = some spoken ∧ some spoken ∉ seen ∧
        ∃ e ∈ before, e.sameSignature r ∧ e.Speaks spoken := by
  cases dialect with
  | none => simp [bodyCause?]
  | some declared =>
    rw [bodyCause?, Option.some.injEq]
    by_cases hseen : some declared ∈ seen
    · rw [if_pos (List.contains_iff_mem.mpr hseen)]
      constructor
      · intro h
        exact absurd (Option.some.inj h) (by simp)
      · intro h
        obtain ⟨rfl, hnot, -⟩ := h
        exact absurd hseen hnot
    · rw [if_neg (mt List.contains_iff_mem.mp hseen), Option.ite_none_right_eq_some,
        Option.some.injEq, Cause.routineRepeated.injEq]
      simp only [List.any_eq_true, Bool.and_eq_true, isSome_bodyFor_iff]
      constructor
      · intro h
        obtain ⟨hbefore, rfl⟩ := h
        exact ⟨rfl, hseen, hbefore⟩
      · intro h
        obtain ⟨rfl, -, hbefore⟩ := h
        exact ⟨hbefore, rfl⟩

/-- A routine is reported for a dialect if it has a body for it, and an earlier routine of
the signature has one too. -/
theorem routineRepeated_mem_bodyCauses_iff :
    .routineRepeated spoken ∈ r.bodyCauses before ↔ ∃ e ∈ before, Collide spoken e r := by
  unfold bodyCauses
  simp only [List.mem_filterMap, bodyCause?_eq_routineRepeated_iff, collide_iff]
  constructor
  · intro h
    obtain ⟨⟨seen, dialect⟩, hq, rfl, -, e, he, hsig, hspeaks⟩ := h
    obtain ⟨front, back, hsplit, -⟩ := Siblings.mem_withEarlier_iff.mp hq
    obtain ⟨body, hbody, hdialect⟩ := List.mem_map.mp
      (show some spoken ∈ r.bodies.map Body.dialect by rw [hsplit]; simp)
    exact ⟨e, he, hsig, hspeaks, body, hbody, hdialect⟩
  · intro h
    obtain ⟨e, he, hsig, hspeaks, body, hbody, hdialect⟩ := h
    -- of the bodies for the dialect it is the first that the earlier routines count for
    obtain ⟨front, back, hsplit, hfirst⟩ :=
      List.eq_append_cons_of_mem (List.mem_map.mpr ⟨body, hbody, hdialect⟩)
    refine ⟨(front.reverse, some spoken), ?_, rfl, by simpa using hfirst, e, he, hsig, hspeaks⟩
    exact Siblings.mem_withEarlier_iff.mpr ⟨front, back, hsplit, (List.append_nil _).symm⟩

end Routine

open Routine (Collide)

namespace Schema

variable {s : Schema} {v : Violation}

/-- Repeated routines are reported of the routines, and of nothing else in a schema. -/
theorem mem_violations_iff_of_duplicateRoutine (hv : v.code = .duplicateRoutine) :
    v ∈ s.violations ↔ v ∈ s.routineViolations := by
  have hbare : Unreported .duplicateRoutine ({ s with routines := [] } : Schema).violations :=
    unreported_iff.mpr ⟨by simp, List.Pairwise.nil⟩
  constructor
  · intro h
    by_contra hnot
    -- it would be reported of the schema without its routines
    refine hbare v ?_ hv
    simp only [violations, typeViolations, List.mem_append] at h ⊢
    tauto
  · intro h
    simp only [violations, List.mem_append]
    tauto

/-- Of the routines of a schema, those are reported as repeated for a dialect that collide for
it with an earlier one. -/
theorem routineRepeated_mem_violations_iff {dialect : Dialect} {place : String} :
    ⟨.routineRepeated dialect, place⟩ ∈ s.violations ↔
      ∃ (i j : Nat) (a b : Routine), i < j ∧ s.routines[i]? = some a ∧ s.routines[j]? = some b ∧
        Collide dialect a b ∧ place = s.name ++ "." ++ b.signature := by
  rw [mem_violations_iff_of_duplicateRoutine rfl]
  unfold routineViolations
  simp only [List.mem_flatMap, List.mem_map, Violation.mk.injEq]
  constructor
  · intro h
    obtain ⟨⟨before, b⟩, hq, cause, hcause, rfl, rfl⟩ := h
    obtain ⟨a, ha, hcollide⟩ := Routine.routineRepeated_mem_bodyCauses_iff.mp hcause
    obtain ⟨front, back, hsplit, hbefore⟩ := Siblings.mem_withEarlier_iff.mp hq
    rw [List.append_nil] at hbefore
    rw [hbefore, List.mem_reverse] at ha
    obtain ⟨i, hi, rfl⟩ := List.getElem_of_mem ha
    refine ⟨i, front.length, front[i], b, hi, ?_, ?_, hcollide, rfl⟩
    · rw [hsplit, List.getElem?_append_left hi, List.getElem?_eq_getElem hi]
    · simp [hsplit]
  · intro h
    obtain ⟨i, j, a, b, hij, ha, hb, hcollide, rfl⟩ := h
    obtain ⟨hj, hbj⟩ := List.getElem?_eq_some_iff.mp hb
    have hsplit : s.routines = s.routines.take j ++ b :: s.routines.drop (j + 1) := by
      rw [← hbj, List.getElem_cons_drop, List.take_append_drop]
    have hearlier : a ∈ s.routines.take j := by
      refine List.mem_of_getElem? (i := i) ?_
      rw [List.getElem?_take_of_lt hij, ha]
    refine ⟨((s.routines.take j).reverse, b), ?_, _, ?_, rfl, rfl⟩
    · exact Siblings.mem_withEarlier_iff.mpr ⟨_, _, hsplit, (List.append_nil _).symm⟩
    · exact Routine.routineRepeated_mem_bodyCauses_iff.mpr
        ⟨a, List.mem_reverse.mpr hearlier, hcollide⟩

end Schema

namespace Definition

variable {d : Definition}

theorem mem_violations_iff_of_duplicateRoutine {v : Violation} (hv : v.code = .duplicateRoutine) :
    v ∈ d.violations ↔ ∃ s ∈ d.schemas, v ∈ s.violations := by
  simp only [violations, List.mem_append, List.mem_flatMap, repeatedAt, List.mem_map]
  constructor
  · intro h
    rcases h with (⟨t, -, rfl⟩ | ⟨l, -, rfl⟩) | h
    · cases hv
    · cases hv
    · exact h
  · exact .inr

/-- **Collisions are reported, and nothing else is.** Two routines of a schema that collide for
a dialect are reported at the later one, whatever stands between them. A report that a routine
is declared more than once for a dialect is always about two routines that collide for it. -/
theorem collisions_reported (d : Definition) :
    (∀ s ∈ d.schemas, ∀ (i j : Nat) (a b : Routine) (dialect : Dialect), i < j →
      s.routines[i]? = some a → s.routines[j]? = some b → Collide dialect a b →
      ∃ v ∈ d.violations, v.code = .duplicateRoutine ∧ v.cause = .routineRepeated dialect ∧
        v.place = s.name ++ "." ++ b.signature) ∧
    ∀ v ∈ d.violations, ∀ dialect, v.cause = .routineRepeated dialect →
      ∃ s ∈ d.schemas, ∃ (i j : Nat) (a b : Routine), i < j ∧ s.routines[i]? = some a ∧
        s.routines[j]? = some b ∧ Collide dialect a b ∧
        v.place = s.name ++ "." ++ b.signature := by
  constructor
  · intro s hs i j a b dialect hij ha hb hcollide
    refine ⟨⟨.routineRepeated dialect, s.name ++ "." ++ b.signature⟩, ?_, rfl, rfl, rfl⟩
    refine (mem_violations_iff_of_duplicateRoutine rfl).mpr ⟨s, hs, ?_⟩
    exact Schema.routineRepeated_mem_violations_iff.mpr ⟨i, j, a, b, hij, ha, hb, hcollide, rfl⟩
  · intro v hv dialect hcause
    obtain ⟨cause, place⟩ := v
    obtain rfl : cause = .routineRepeated dialect := hcause
    obtain ⟨s, hs, hvs⟩ := (mem_violations_iff_of_duplicateRoutine rfl).mp hv
    exact ⟨s, hs, Schema.routineRepeated_mem_violations_iff.mp hvs⟩

/-- Three routines of one name. The second stands between two that collide, for the second of
the dialects of the last. -/
def separated : Definition where
  schemas := [{
    name := "public"
    routines := [
      { name := "total", parameters := [{ name := "a", type := "int" }],
        bodies := [{ dialect := some .mssql10, text := "SELECT 1" }] },
      { name := "total", parameters := [{ name := "a", type := "text" }],
        bodies := [{ dialect := some .mssql10, text := "SELECT 2" }] },
      { name := "TOTAL", parameters := [{ name := "A", type := "INT" }],
        bodies := [{ dialect := some .pgsql8, text := "SELECT 3" },
          { dialect := some .mssql10, text := "SELECT 4" }] }] }]

theorem collisions_reported_separated :
    (∃ v ∈ separated.violations, v.code = .duplicateRoutine ∧
      v.cause = .routineRepeated .mssql10 ∧ v.place = "public.TOTAL(INT)") ∧
    ∀ v ∈ separated.violations, v.cause ≠ .routineRepeated .pgsql8 := by
  obtain ⟨hreported, hcollide⟩ := collisions_reported separated
  constructor
  · obtain ⟨v, hv, hcode, hcause, hplace⟩ := hreported _ List.mem_cons_self 0 2 _ _ .mssql10
      (by decide) rfl rfl (Routine.collide_iff.mpr ⟨by decide +kernel, ⟨_, .head _, rfl⟩,
        ⟨_, .tail _ (.head _), rfl⟩⟩)
    exact ⟨v, hv, hcode, hcause, by rw [hplace]; decide +kernel⟩
  · intro v hv hcause
    obtain ⟨s, hs, i, j, a, b, hij, ha, hb, h, -⟩ := hcollide v hv .pgsql8 hcause
    obtain rfl := List.mem_singleton.mp hs
    -- the earlier of two routines is not the last, which alone has a body for the dialect
    have hj : j < 3 := (List.getElem?_eq_some_iff.mp hb).1
    obtain rfl | rfl : i = 0 ∨ i = 1 := by omega
    · obtain rfl := Option.some.inj ha
      exact absurd h.first (by simp [Routine.Speaks])
    · obtain rfl := Option.some.inj ha
      exact absurd h.first (by simp [Routine.Speaks])

/-- Three routines of one name with a parameter of one type. The second has another name for
it, and in the third it goes the other way. -/
def homonyms : Definition where
  schemas := [{
    name := "public"
    routines := [
      { name := "total", parameters := [{ name := "a", type := "int" }],
        bodies := [{ dialect := some .pgsql8, text := "SELECT 1" }] },
      { name := "total", parameters := [{ name := "b", type := "int" }],
        bodies := [{ dialect := some .pgsql8, text := "SELECT 2" }] },
      { name := "total", parameters := [{ name := "a", type := "int", direction := .outward }],
        bodies := [{ dialect := some .pgsql8, text := "SELECT 3" }] }] }]

/-- Routines that agree in name and in the types of their parameters need not collide, although
they have bodies for one dialect. -/
theorem homonyms_unreported :
    ∃ s ∈ homonyms.schemas, s.routines.length = 3 ∧
      (s.routines.Pairwise fun a b => a ≠ b ∧ Name.same a.name b.name ∧
        List.Forall₂ (fun p q => Name.same p.type q.type) a.parameters b.parameters) ∧
      (∀ r ∈ s.routines, r.Speaks .pgsql8) ∧
      ∀ v ∈ homonyms.violations, v.code ≠ .duplicateRoutine := by
  refine ⟨_, List.mem_cons_self, rfl, by decide, ?_, by decide +kernel⟩
  simp [Routine.Speaks]

end Definition

end LayeredSchema
