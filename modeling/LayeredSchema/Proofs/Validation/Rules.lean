import LayeredSchema.Validation.Check
import LayeredSchema.Proofs.Overlay.Kinds
import LayeredSchema.Proofs.Overlay.Rows

/-!
# The rule behind each code

Validation reports violations one by one, in an order of its own. What matters
for a definition is which codes it is reported under, and that is a question
about each code alone: `Definition.Meets d c` says what `d` has to be like for
the code `c` not to be reported, `Schema.Meets` and `Table.Meets` say it of the
parts. `Definition.unreported_iff` shows that these rules are the validator's, no
stricter and no laxer, and `validate_eq_ok_iff` that the valid definitions are
those that meet all of them.

The one rule that is not plain from the check is that for routines. The check
goes body by body, with the dialects seen and the routines before; together that
says that no routine has two bodies for one dialect and no two routines are the
same (`Routine.forall_bodyCauses_iff`).
-/

namespace LayeredSchema

open Siblings (Distinct withEarlier forall_earlier_iff forall_snd_withEarlier_iff)
open Violation (Cause Code)

/-! ## Codes among violations -/

namespace Violation

/-- No violation of the list is reported under the code. -/
def Unreported (c : Code) (violations : List Violation) : Prop := ∀ v ∈ violations, v.code ≠ c

variable {c : Code} {α : Type}

theorem unreported_append {as bs : List Violation} :
    Unreported c (as ++ bs) ↔ Unreported c as ∧ Unreported c bs :=
  List.forall_mem_append

theorem unreported_flatMap {l : List α} {f : α → List Violation} :
    Unreported c (l.flatMap f) ↔ ∀ a ∈ l, Unreported c (f a) := by
  unfold Unreported
  simp only [List.mem_flatMap]
  exact ⟨fun h a ha v hv => h v ⟨a, ha, hv⟩, fun h v ⟨a, ha, hv⟩ => h a ha v hv⟩

theorem unreported_map {l : List α} {cause : α → Cause} {place : α → String} :
    Unreported c (l.map fun a => ⟨cause a, place a⟩) ↔ ∀ a ∈ l, (cause a).code ≠ c :=
  List.forall_mem_map

/-- A list without elements for which there is a violation each is no list at all,
or the code is another one. -/
theorem unreported_map_const {l : List α} {cause : α → Cause} {place : α → String} (code : Code)
    (h : ∀ a, (cause a).code = code) :
    Unreported c (l.map fun a => ⟨cause a, place a⟩) ↔ (code = c → l = []) := by
  rw [unreported_map]
  simp only [h]
  constructor
  · intro hne hc
    exact List.eq_nil_iff_forall_not_mem.mpr fun a ha => hne a ha hc
  · intro hnil a ha hc
    exact List.not_mem_nil (hnil hc ▸ ha)

theorem unreported_repeatedAt [Identity α] {place : String} {cause : α → Cause} (code : Code)
    (h : ∀ a, (cause a).code = code) {siblings : List α} :
    Unreported c (repeatedAt place cause siblings) ↔ (code = c → Distinct siblings) := by
  rw [repeatedAt, unreported_map_const code h, Siblings.repeated_eq_nil_iff]

end Violation

open Violation

/-! ## Tables -/

namespace ForeignKey

theorem forall_causes_iff {fk : ForeignKey} {c : Code} :
    (∀ cause ∈ fk.causes, cause.code ≠ c) ↔
      (.foreignKeyMissingName = c → fk.name ≠ "") ∧
      (.foreignKeyMissingColumns = c → fk.columns ≠ []) := by
  unfold causes
  rw [List.forall_mem_append]
  refine and_congr ?_ ?_
  · split
    next h => simp [h, Cause.code]
    next h => simp [h]
  · split
    next h => simp [h, Cause.code]
    next h => simp [h]

end ForeignKey

namespace RowBlock

theorem forall_causes_iff {block : RowBlock} {c : Code} :
    (∀ cause ∈ block.causes, cause.code ≠ c) ↔ (.rowArity = c → block.WellFormed) := by
  unfold causes WellFormed
  constructor
  · intro h hc row hrow
    obtain ⟨i, hi⟩ := List.mem_iff_getElem?.mp hrow
    by_contra hlength
    refine h _ (List.mem_filterMap.mpr ⟨(row, i), ?_, if_neg hlength⟩) hc
    exact List.mk_mem_zipIdx_iff_getElem?.mpr hi
  · intro h cause hcause hc
    obtain ⟨⟨row, i⟩, hrow, hcause⟩ := List.mem_filterMap.mp hcause
    obtain ⟨hlength, hcause⟩ := Option.ite_none_left_eq_some.mp hcause
    obtain rfl := Option.some.inj hcause
    exact hlength (h hc row (List.fst_mem_of_mem_zipIdx hrow))

end RowBlock

namespace Table

/-- What a table has to be like for a code not to be reported of it. -/
def Meets (t : Table) : Code → Prop
  | .duplicateColumn => Distinct t.columns
  | .duplicateIndex => Distinct t.indexes
  | .duplicateConstraint => Distinct t.constraints
  | .duplicateForeignKey => Distinct t.namedForeignKeys
  | .foreignKeyMissingName => ∀ fk ∈ t.foreignKeys, fk.name ≠ ""
  | .foreignKeyMissingColumns => ∀ fk ∈ t.foreignKeys, fk.columns ≠ []
  | .columnForeignKeyIncomplete => ∀ c ∈ t.columns, c.mentionsForeignKey → c.hasForeignKey
  | .primaryKeyUnknownColumn => ¬ t.hasParent → ∀ name ∈ t.primaryKey, (t.column? name).isSome
  | .rowArity => ∀ block ∈ t.rows, block.WellFormed
  | _ => True

theorem unknownKeyColumns_eq_nil_iff {t : Table} :
    t.unknownKeyColumns = [] ↔ t.Meets .primaryKeyUnknownColumn := by
  unfold unknownKeyColumns Meets
  split
  next h => simp [h]
  next h => simp [h, List.filter_eq_nil_iff, Option.isSome_iff_ne_none]

theorem filter_incomplete_eq_nil_iff {t : Table} :
    t.columns.filter Column.isForeignKeyIncomplete = [] ↔
      t.Meets .columnForeignKeyIncomplete := by
  rw [List.filter_eq_nil_iff]
  simp [Meets, Column.isForeignKeyIncomplete]

theorem unreported_iff {t : Table} {schema : String} {c : Code} :
    Unreported c (t.violations schema) ↔ t.Meets c := by
  unfold violations
  simp only [unreported_append, unreported_flatMap]
  rw [unreported_repeatedAt .duplicateColumn fun _ => rfl,
    unreported_repeatedAt .duplicateIndex fun _ => rfl,
    unreported_repeatedAt .duplicateConstraint fun _ => rfl,
    unreported_repeatedAt .duplicateForeignKey fun _ => rfl,
    unreported_map_const .columnForeignKeyIncomplete fun _ => rfl,
    unreported_map_const .primaryKeyUnknownColumn fun _ => rfl,
    filter_incomplete_eq_nil_iff, unknownKeyColumns_eq_nil_iff]
  simp only [unreported_map, ForeignKey.forall_causes_iff, RowBlock.forall_causes_iff]
  cases c <;> simp [Meets]

end Table

/-! ## Routines -/

namespace Routine

variable {r : Routine} {before : List Routine} {c : Code}

/-- All that can be wrong with a body that declares its dialect is reported under
one code. -/
theorem code_of_bodyCause? {seen : List (Option Dialect)} {spoken : Dialect} {cause : Cause}
    (h : r.bodyCause? before seen (some spoken) = some cause) :
    cause.code = .duplicateRoutine := by
  rw [bodyCause?] at h
  split at h
  next =>
    obtain rfl := Option.some.inj h
    rfl
  next =>
    obtain ⟨-, h⟩ := Option.ite_none_right_eq_some.mp h
    obtain rfl := Option.some.inj h
    rfl

theorem bodyCause?_eq_none_iff {seen : List (Option Dialect)} {spoken : Dialect} :
    r.bodyCause? before seen (some spoken) = none ↔
      some spoken ∉ seen ∧ ∀ e ∈ before, ¬ (e.sameSignature r ∧ e.Speaks spoken) := by
  rw [bodyCause?]
  split
  next hseen =>
    -- a second body for the dialect is reported whatever came before the routine
    simp [List.contains_iff_mem.mp hseen]
  next hseen =>
    rw [List.contains_iff_mem] at hseen
    simp [hseen, ← isSome_bodyFor_iff]

theorem forall_bodyCause_iff {seen : List (Option Dialect)} {dialect : Option Dialect} :
    (∀ cause, r.bodyCause? before seen dialect = some cause → cause.code ≠ c) ↔
      (.bodyMissingDialect = c → dialect ≠ none) ∧
      (.duplicateRoutine = c → ∀ spoken, dialect = some spoken →
        some spoken ∉ seen ∧ ∀ e ∈ before, ¬ (e.sameSignature r ∧ e.Speaks spoken)) := by
  cases dialect with
  | none => simp [bodyCause?, Cause.code]
  | some spoken =>
    constructor
    · intro h
      refine ⟨fun _ => Option.some_ne_none _, ?_⟩
      intro hc spoken' hspoken
      obtain rfl := Option.some.inj hspoken
      rw [← bodyCause?_eq_none_iff, Option.eq_none_iff_forall_ne_some]
      intro cause hcause
      exact h cause hcause ((code_of_bodyCause? hcause).trans hc)
    · intro h cause hcause hc
      obtain ⟨-, h⟩ := h
      have hnone := bodyCause?_eq_none_iff.mpr
        (h ((code_of_bodyCause? hcause).symm.trans hc) spoken rfl)
      rw [hnone] at hcause
      exact absurd hcause (by simp)

theorem forall_declared_iff :
    (∀ p ∈ withEarlier [] (r.bodies.map Body.dialect), p.2 ≠ none) ↔
      ∀ body ∈ r.bodies, body.dialect ≠ none := by
  rw [forall_snd_withEarlier_iff (P := fun dialect => dialect ≠ none), List.forall_mem_map]

/-- Two bodies of a routine are the same if they declare the same dialect. -/
theorem distinct_bodies_iff :
    (∀ p ∈ withEarlier [] (r.bodies.map Body.dialect), ∀ spoken, p.2 = some spoken →
      some spoken ∉ p.1) ↔ Distinct r.bodies := by
  have hpairs : Distinct r.bodies ↔ (r.bodies.map Body.dialect).Pairwise fun a b =>
      ∀ spoken, b = some spoken → a ≠ some spoken := by
    rw [List.pairwise_map]
    refine List.Pairwise.iff fun a b => ?_
    rw [sameAs_iff_key]
    exact ⟨fun h spoken hb ha => h ⟨spoken, ha, hb⟩, fun h ⟨spoken, ha, hb⟩ => h spoken hb ha⟩
  rw [hpairs, ← forall_earlier_iff]
  constructor
  · intro h p hp e he spoken hspoken heq
    exact h p hp spoken hspoken (heq ▸ he)
  · intro h p hp spoken hspoken hseen
    exact h p hp (some spoken) hseen spoken hspoken rfl

/-- An earlier routine of the signature that speaks a dialect of the routine is the
same as it. -/
theorem forall_apart_iff :
    (∀ p ∈ withEarlier [] (r.bodies.map Body.dialect), ∀ spoken, p.2 = some spoken →
      ∀ e ∈ before, ¬ (e.sameSignature r ∧ e.Speaks spoken)) ↔
    ∀ e ∈ before, ¬ Identity.sameAs e r := by
  rw [forall_snd_withEarlier_iff (P := fun dialect => ∀ spoken, dialect = some spoken →
    ∀ e ∈ before, ¬ (e.sameSignature r ∧ e.Speaks spoken)), List.forall_mem_map]
  constructor
  · intro h e he hsame
    obtain ⟨hsig, spoken, hspeaks, body, hbody, hspoken⟩ := sameAs_routine_iff.mp hsame
    exact h body hbody spoken hspoken e he ⟨sameSignature_iff.mpr hsig, hspeaks⟩
  · intro h body hbody spoken hspoken e he hclash
    obtain ⟨hsig, hspeaks⟩ := hclash
    refine h e he (sameAs_routine_iff.mpr ⟨sameSignature_iff.mp hsig, spoken, hspeaks, ?_⟩)
    exact ⟨body, hbody, hspoken⟩

/-- **The rule for routines.** The check of the bodies, each against those before
it and the routines before, comes to this. -/
theorem forall_bodyCauses_iff :
    (∀ cause ∈ r.bodyCauses before, cause.code ≠ c) ↔
      (.bodyMissingDialect = c → ∀ body ∈ r.bodies, body.dialect ≠ none) ∧
      (.duplicateRoutine = c → Distinct r.bodies ∧ ∀ e ∈ before, ¬ Identity.sameAs e r) := by
  have hbodies : (∀ cause ∈ r.bodyCauses before, cause.code ≠ c) ↔
      ∀ p ∈ withEarlier [] (r.bodies.map Body.dialect),
        ∀ cause, r.bodyCause? before p.1 p.2 = some cause → cause.code ≠ c := by
    unfold bodyCauses
    simp only [List.mem_filterMap]
    exact ⟨fun h p hp cause hcause => h cause ⟨p, hp, hcause⟩,
      fun h cause ⟨p, hp, hcause⟩ => h p hp cause hcause⟩
  -- the three conditions on a body, each said of all bodies
  rw [hbodies, ← forall_declared_iff, ← distinct_bodies_iff, ← forall_apart_iff]
  simp only [forall_bodyCause_iff]
  constructor
  · intro h
    refine ⟨fun hc p hp => (h p hp).1 hc, fun hc => ⟨?_, ?_⟩⟩
    · intro p hp spoken hspoken
      exact ((h p hp).2 hc spoken hspoken).1
    · intro p hp spoken hspoken
      exact ((h p hp).2 hc spoken hspoken).2
  · intro h p hp
    obtain ⟨hmissing, hrepeated⟩ := h
    refine ⟨fun hc => hmissing hc p hp, fun hc spoken hspoken => ?_⟩
    obtain ⟨hdistinct, hapart⟩ := hrepeated hc
    exact ⟨hdistinct p hp spoken hspoken, hapart p hp spoken hspoken⟩

end Routine

/-! ## Types, schemas, definitions -/

namespace UserType

/-- The type has the payload of its kind and no other, and a domain has a base. -/
def FitsKind (t : UserType) : Prop := t.strayPayload = [] ∧ (t.kind = .domain → t.base ≠ none)

theorem forall_causes_iff {t : UserType} {c : Code} :
    (∀ cause ∈ t.causes, cause.code ≠ c) ↔ (.typeKindMismatch = c → t.FitsKind) := by
  have hcode : ∀ cause ∈ t.causes, cause.code = .typeKindMismatch := by
    unfold causes
    rw [List.forall_mem_append, List.forall_mem_map]
    refine ⟨fun _ _ => rfl, ?_⟩
    split
    next => exact fun cause hcause => List.mem_singleton.mp hcause ▸ rfl
    next => exact fun cause hcause => absurd hcause List.not_mem_nil
  have hnil : t.causes = [] ↔ t.FitsKind := by
    simp [causes, FitsKind]
  rw [← hnil, List.eq_nil_iff_forall_not_mem]
  constructor
  · intro h hc cause hcause
    exact h cause hcause ((hcode cause hcause).trans hc)
  · intro h cause hcause hc
    exact h ((hcode cause hcause).symm.trans hc) cause hcause

end UserType

namespace Schema

/-- What a schema has to be like for a code not to be reported of it or of its tables. -/
def Meets (s : Schema) : Code → Prop
  | .duplicateTable => Distinct s.tables
  | .duplicateType => Distinct s.types
  | .duplicateSequence => Distinct s.sequences
  | .duplicateTrigger => Distinct s.triggers
  | .duplicateView => Distinct s.views
  | .duplicateRoutine => (∀ r ∈ s.routines, Distinct r.bodies) ∧ Distinct s.routines
  | .bodyMissingDialect => ∀ r ∈ s.routines, ∀ body ∈ r.bodies, body.dialect ≠ none
  | .typeKindMismatch => ∀ t ∈ s.types, t.FitsKind
  | c => ∀ t ∈ s.tables, t.Meets c

theorem unreported_routineViolations_iff {s : Schema} {c : Code} :
    Unreported c s.routineViolations ↔
      (.bodyMissingDialect = c → s.Meets .bodyMissingDialect) ∧
      (.duplicateRoutine = c → s.Meets .duplicateRoutine) := by
  unfold routineViolations
  simp only [unreported_flatMap, unreported_map, Routine.forall_bodyCauses_iff]
  constructor
  · refine fun h => ⟨fun hc => ?_, fun hc => ⟨?_, ?_⟩⟩
    · exact forall_snd_withEarlier_iff.mp fun p hp => (h p hp).1 hc
    · exact forall_snd_withEarlier_iff.mp fun p hp => ((h p hp).2 hc).1
    · exact forall_earlier_iff.mp fun p hp => ((h p hp).2 hc).2
  · intro h p hp
    obtain ⟨hmissing, hrepeated⟩ := h
    refine ⟨fun hc => ?_, fun hc => ⟨?_, ?_⟩⟩
    · exact forall_snd_withEarlier_iff.mpr (hmissing hc) p hp
    · exact forall_snd_withEarlier_iff.mpr (hrepeated hc).1 p hp
    · exact forall_earlier_iff.mpr (hrepeated hc).2 p hp

theorem unreported_iff {s : Schema} {c : Code} : Unreported c s.violations ↔ s.Meets c := by
  unfold violations typeViolations
  simp only [unreported_append, unreported_flatMap]
  rw [unreported_repeatedAt .duplicateTable fun _ => rfl,
    unreported_repeatedAt .duplicateType fun _ => rfl,
    unreported_repeatedAt .duplicateSequence fun _ => rfl,
    unreported_repeatedAt .duplicateTrigger fun _ => rfl,
    unreported_repeatedAt .duplicateView fun _ => rfl,
    unreported_routineViolations_iff]
  simp only [unreported_map, UserType.forall_causes_iff, Table.unreported_iff]
  cases c <;> simp [Meets, Table.Meets]

end Schema

namespace Definition

/-- What a definition has to be like for a code not to be reported. -/
def Meets (d : Definition) : Code → Prop
  | .duplicateSchema => Distinct d.schemas
  | .duplicateLanguage => Distinct d.languages
  | c => ∀ s ∈ d.schemas, s.Meets c

/-- **The rules are the validator's.** -/
theorem unreported_iff {d : Definition} {c : Code} : Unreported c d.violations ↔ d.Meets c := by
  unfold violations
  simp only [unreported_append, unreported_flatMap]
  rw [unreported_repeatedAt .duplicateSchema fun _ => rfl,
    unreported_repeatedAt .duplicateLanguage fun _ => rfl]
  simp only [Schema.unreported_iff]
  cases c <;> simp [Meets, Schema.Meets, Table.Meets]

theorem validate_eq_ok_iff_nil {d : Definition} : d.validate = .ok () ↔ d.violations = [] := by
  simp [validate]

/-- A definition is valid if it meets every rule. -/
theorem validate_eq_ok_iff {d : Definition} : d.validate = .ok () ↔ ∀ c, d.Meets c := by
  rw [validate_eq_ok_iff_nil, List.eq_nil_iff_forall_not_mem]
  simp only [← unreported_iff]
  exact ⟨fun h c v hv => absurd hv (h v), fun h v hv => h v.code v hv rfl⟩

variable {d : Definition} {s : Schema} {t : Table}

/-- The schemas of a valid definition meet every rule, -/
theorem schema_meets_of_valid (h : d.validate = .ok ()) (hs : s ∈ d.schemas) (c : Code) :
    s.Meets c := by
  have hd := validate_eq_ok_iff.mp h c
  cases c with
  | duplicateSchema | duplicateLanguage => exact fun _ _ => trivial
  | _ => exact hd s hs

/-- and so do the tables in them. -/
theorem table_meets_of_valid (h : d.validate = .ok ()) (hs : s ∈ d.schemas)
    (ht : t ∈ s.tables) (c : Code) : t.Meets c := by
  have hs := schema_meets_of_valid h hs c
  cases c with
  | duplicateSchema | duplicateLanguage | duplicateTable | duplicateType | duplicateSequence
  | duplicateRoutine | duplicateTrigger | duplicateView | typeKindMismatch
  | bodyMissingDialect => trivial
  | _ => exact hs t ht

end Definition

end LayeredSchema
