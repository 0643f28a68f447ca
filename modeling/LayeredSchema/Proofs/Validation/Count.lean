import LayeredSchema.Proofs.Validation.Rules
import LayeredSchema.Proofs.Validation.Surplus
import Mathlib.Algebra.GroupWithZero.Nat

/-!
# How often each code is reported

That a code is reported exactly where its rule is broken says that no fault goes
unnoticed; it does not say that each is reported once. Here the violations are
counted: `Definition.count` gives for each code the number that what is declared
comes to, without going through the siblings in order, and `violations_counted`
shows that validation reports as many.

Where names repeat, the number is that of the siblings beyond one for each name.
For routines it is the same number of the bodies that declare a dialect, each
known by its signature and its dialect (`Routine.declared`). The check finds
repeated bodies in two ways, against the bodies before in the routine and
against the routines before it; the two ways never both report one body, and
together they report it exactly if its signature and dialect were declared
before (`Routine.countP_bodyCause?`).
-/

namespace LayeredSchema

open Siblings (withEarlier)
open Violation (Cause Code)

/-! ## Tallies -/

namespace Violation

/-- How many violations of the list are reported under the code. -/
def tally (c : Code) (violations : List Violation) : Nat :=
  violations.countP fun v => v.code = c

variable {c : Code} {α : Type}

theorem tally_append {as bs : List Violation} :
    tally c (as ++ bs) = tally c as + tally c bs :=
  List.countP_append

theorem tally_flatMap {l : List α} {f : α → List Violation} :
    tally c (l.flatMap f) = (l.map fun a => tally c (f a)).sum :=
  List.countP_flatMap

theorem tally_map {l : List α} {cause : α → Cause} {place : α → String} :
    tally c (l.map fun a => ⟨cause a, place a⟩) = l.countP fun a => (cause a).code = c :=
  List.countP_map

/-- Where there is one violation for each element, and always under one code. -/
theorem tally_map_const {l : List α} {cause : α → Cause} {place : α → String} (code : Code)
    (h : ∀ a ∈ l, (cause a).code = code) :
    tally c (l.map fun a => ⟨cause a, place a⟩) = if code = c then l.length else 0 := by
  rw [tally_map]
  by_cases hc : code = c
  · rw [if_pos hc, List.countP_eq_length]
    intro a ha
    simp [h a ha, hc]
  · rw [if_neg hc, List.countP_eq_zero]
    intro a ha
    simp [h a ha, hc]

theorem tally_repeatedAt [Identity α] {place : String} {cause : α → Cause} (code : Code)
    (h : ∀ a, (cause a).code = code) {siblings : List α} :
    tally c (repeatedAt place cause siblings) =
      if code = c then (Siblings.repeated siblings).length else 0 :=
  tally_map_const code fun a _ => h a

theorem tally_eq_zero_iff {violations : List Violation} :
    tally c violations = 0 ↔ Unreported c violations := by
  simp [tally, Unreported]

end Violation

open Violation

/-! ## Tables -/

namespace ForeignKey

theorem tally_causes {fks : List ForeignKey} {place : String} {c : Code} :
    tally c (fks.flatMap fun fk => fk.causes.map fun cause => ⟨cause, place⟩) =
      (if .foreignKeyMissingName = c then fks.countP (fun fk => fk.name = "") else 0) +
      if .foreignKeyMissingColumns = c then fks.countP (fun fk => fk.columns = []) else 0 := by
  induction fks with
  | nil => simp [tally]
  | cons fk rest ih =>
    have hfk : tally c (fk.causes.map fun cause => ⟨cause, place⟩) =
        (if fk.name = "" then if .foreignKeyMissingName = c then 1 else 0 else 0) +
        if fk.columns = [] then if .foreignKeyMissingColumns = c then 1 else 0 else 0 := by
      rw [tally_map, causes, List.countP_append]
      congr 1
      · split_ifs <;> simp_all [Cause.code]
      · split_ifs <;> simp_all [Cause.code]
    rw [List.flatMap_cons, tally_append, hfk, ih, List.countP_cons, List.countP_cons]
    simp only [decide_eq_true_eq]
    split_ifs <;> omega

end ForeignKey

namespace RowBlock

theorem tally_causes {block : RowBlock} {place : String} {c : Code} :
    tally c (block.causes.map fun cause => ⟨cause, place⟩) =
      if .rowArity = c then
        block.rows.countP fun row => row.values.length ≠ block.columns.length
      else 0 := by
  have hcode : ∀ cause ∈ block.causes, cause.code = .rowArity := by
    intro cause hcause
    obtain ⟨⟨row, i⟩, -, hrow⟩ := List.mem_filterMap.mp hcause
    obtain ⟨-, hrow⟩ := Option.ite_none_left_eq_some.mp hrow
    obtain rfl := Option.some.inj hrow
    rfl
  have hlength : block.causes.length =
      block.rows.countP fun row => row.values.length ≠ block.columns.length := by
    -- the positions of the rows matter to the messages only
    conv_rhs => rw [← List.zipIdx_map_fst 0 block.rows, List.countP_map]
    rw [causes, List.length_filterMap_eq_countP]
    refine List.countP_congr fun p _ => ?_
    by_cases h : p.1.values.length = block.columns.length <;> simp [h]
  rw [tally_map_const .rowArity hcode, hlength]

end RowBlock

namespace Table

/-- How often a code is to be reported of a table, as the table declares things. -/
def count (t : Table) : Code → Nat
  | .duplicateColumn => surplus (t.columns.map fun c => Name.fold c.name)
  | .duplicateIndex => surplus (t.indexes.map fun i => Name.fold i.name)
  | .duplicateConstraint => surplus (t.constraints.map fun c => Name.fold c.name)
  | .duplicateForeignKey =>
    surplus ((t.foreignKeys.filter fun fk => fk.name ≠ "").map fun fk => Name.fold fk.name)
  | .foreignKeyMissingName => t.foreignKeys.countP fun fk => fk.name = ""
  | .foreignKeyMissingColumns => t.foreignKeys.countP fun fk => fk.columns = []
  | .columnForeignKeyIncomplete => t.columns.countP fun c => c.foreignTable = "" ∧
      (c.foreignSchema ≠ "" ∨ c.foreignColumn ≠ "" ∨ c.foreignKeyName ≠ "")
  | .primaryKeyUnknownColumn =>
    if t.parentTable = "" then
      t.primaryKey.countP fun name => ∀ c ∈ t.columns, Name.fold c.name ≠ Name.fold name
    else 0
  | .rowArity =>
    (t.rows.toList.map fun block =>
      block.rows.countP fun row => row.values.length ≠ block.columns.length).sum
  | _ => 0

theorem surplus_namedForeignKeys {t : Table} :
    surplus (t.namedForeignKeys.map fun fk => Name.fold fk.name) =
      t.count .duplicateForeignKey := by
  simp only [namedForeignKeys, count, bne, Bool.beq_eq_decide_eq, decide_not]

theorem length_incomplete {t : Table} :
    (t.columns.filter Column.isForeignKeyIncomplete).length =
      t.count .columnForeignKeyIncomplete := by
  rw [count, ← List.countP_eq_length_filter]
  refine List.countP_congr fun c _ => ?_
  simp only [Column.isForeignKeyIncomplete, Column.mentionsForeignKey, Column.hasForeignKey]
  grind

theorem length_unknownKeyColumns {t : Table} :
    t.unknownKeyColumns.length = t.count .primaryKeyUnknownColumn := by
  have hfound : ∀ name, (t.column? name).isNone = true ↔
      ∀ c ∈ t.columns, Name.fold c.name ≠ Name.fold name := by
    intro name
    rw [← Option.not_isSome, Bool.not_eq_true', ← Bool.not_eq_true, column?,
      Siblings.isSome_named?_iff]
    push Not
    rfl
  unfold unknownKeyColumns count hasParent
  by_cases hparent : t.parentTable = ""
  · rw [if_neg (by simp [hparent]), if_pos hparent, ← List.countP_eq_length_filter]
    refine List.countP_congr fun name _ => ?_
    rw [hfound, decide_eq_true_iff]
  · rw [if_pos (by simp [hparent]), if_neg hparent, List.length_nil]

theorem tally_violations {t : Table} {schema : String} {c : Code} :
    tally c (t.violations schema) = t.count c := by
  unfold violations
  simp only [tally_append, ForeignKey.tally_causes]
  rw [tally_repeatedAt .duplicateColumn fun _ => rfl,
    tally_repeatedAt .duplicateIndex fun _ => rfl,
    tally_repeatedAt .duplicateConstraint fun _ => rfl,
    tally_repeatedAt .duplicateForeignKey fun _ => rfl,
    tally_map_const .columnForeignKeyIncomplete fun _ _ => rfl,
    tally_map_const .primaryKeyUnknownColumn fun _ _ => rfl,
    tally_flatMap]
  simp only [Siblings.length_repeated_named, RowBlock.tally_causes, length_incomplete,
    length_unknownKeyColumns]
  cases c <;> simp [count, Named.name, surplus_namedForeignKeys]

end Table

/-! ## Routines -/

namespace Routine

/-- What a body declares: the signature of its routine with the dialect of the
body, if it gives one. -/
def declaredFor (r : Routine) (dialect : Option Dialect) :
    List ((String × List (String × String × Direction)) × Dialect) :=
  dialect.toList.map fun spoken => (r.signatureKey, spoken)

/-- What the bodies of a routine declare. -/
def declared (r : Routine) : List ((String × List (String × String × Direction)) × Dialect) :=
  (r.bodies.map Body.dialect).flatMap r.declaredFor

theorem mem_flatMap_declared_iff {routines : List Routine} {r : Routine} {dialect : Dialect} :
    (r.signatureKey, dialect) ∈ routines.flatMap declared ↔
      ∃ e ∈ routines, e.sameSignature r ∧ e.Speaks dialect := by
  simp only [List.mem_flatMap, declared, declaredFor, List.mem_map, Option.mem_toList,
    Prod.mk.injEq, sameSignature_iff, Speaks]
  constructor
  · rintro ⟨e, he, _, ⟨body, hbody, rfl⟩, spoken, hspoken, hsig, rfl⟩
    exact ⟨e, he, hsig, body, hbody, hspoken⟩
  · rintro ⟨e, he, hsig, body, hbody, hspoken⟩
    exact ⟨e, he, some dialect, ⟨body, hbody, hspoken⟩, dialect, rfl, hsig, rfl⟩

/-- A body that declares its dialect is reported exactly if the signature with
that dialect was declared before, by an earlier body or an earlier routine. -/
theorem countP_bodyCause? {r : Routine} {before : List Routine} {seen : List (Option Dialect)}
    {spoken : Dialect} :
    (r.bodyCause? before seen (some spoken)).toList.countP
        (fun cause => cause.code = .duplicateRoutine) =
      if some spoken ∈ seen ∨ (r.signatureKey, spoken) ∈ before.flatMap declared then 1 else 0 := by
  have hnone : r.bodyCause? before seen (some spoken) = none ↔ _ := bodyCause?_eq_none_iff
  have hold : (some spoken ∈ seen ∨ (r.signatureKey, spoken) ∈ before.flatMap declared) ↔
      ¬ r.bodyCause? before seen (some spoken) = none := by
    rw [hnone, mem_flatMap_declared_iff]
    grind
  rw [if_congr hold rfl rfl]
  cases hcause : r.bodyCause? before seen (some spoken) with
  | none => simp
  | some cause => simp [code_of_bodyCause? hcause]

/-- The bodies of a routine that are reported as repeated, and what the routine
is the first to declare, are together what it declares. -/
theorem countP_bodyCauses_add_card {r : Routine} {before : List Routine} :
    (r.bodyCauses before).countP (fun cause => cause.code = .duplicateRoutine) +
        ((r :: before).flatMap declared).toFinset.card =
      r.declared.length + (before.flatMap declared).toFinset.card := by
  have hfound : r.bodyCauses before = (withEarlier [] (r.bodies.map Body.dialect)).flatMap
      fun q => (r.bodyCause? before q.1 q.2).toList := List.filterMap_eq_flatMap_toList _ _
  have hset : ((r :: before).flatMap declared).toFinset =
      (before.flatMap declared).toFinset ∪ r.declared.toFinset := by
    rw [List.flatMap_cons, List.toFinset_append, Finset.union_comm]
  -- the routines before stand outside the list of the bodies
  have hall := Siblings.countP_flatMap_withEarlier (before.flatMap declared).toFinset
    (fun seen dialect => (r.bodyCause? before seen dialect).toList)
    (fun cause => cause.code = .duplicateRoutine) r.declaredFor ?_ [] (r.bodies.map Body.dialect)
  · rw [hset, hfound]
    simpa [declared] using hall
  · intro seen dialect
    cases dialect with
    | none => simp [bodyCause?, declaredFor, Cause.code]
    | some spoken =>
      let known := (before.flatMap declared).toFinset ∪ (seen.flatMap r.declaredFor).toFinset
      have hnew : (before.flatMap declared).toFinset ∪
          ((some spoken :: seen).flatMap r.declaredFor).toFinset =
            insert (r.signatureKey, spoken) known := by
        simp [declaredFor, known]
      have hold : (some spoken ∈ seen ∨ (r.signatureKey, spoken) ∈ before.flatMap declared) ↔
          (r.signatureKey, spoken) ∈ known := by
        simp [declaredFor, known, or_comm]
      rw [countP_bodyCause?, hnew, if_congr hold rfl rfl]
      exact ite_mem_add_card_insert (r.signatureKey, spoken) known

theorem countP_bodyCauses_missing {r : Routine} {before : List Routine} :
    (r.bodyCauses before).countP (fun cause => cause.code = .bodyMissingDialect) =
      r.bodies.countP fun body => body.dialect = none := by
  have hbody : ∀ q ∈ withEarlier [] (r.bodies.map Body.dialect),
      ((r.bodyCause? before q.1 q.2).map fun cause =>
        decide (cause.code = .bodyMissingDialect)).getD false = decide (q.2 = none) := by
    rintro ⟨seen, dialect⟩ -
    cases dialect with
    | none => simp [bodyCause?, Cause.code]
    | some spoken =>
      cases hcause : r.bodyCause? before seen (some spoken) with
      | none => simp
      | some cause => simp [code_of_bodyCause? hcause]
  rw [bodyCauses, List.countP_filterMap, List.countP_congr fun q hq => by rw [hbody q hq]]
  have hsnd : (withEarlier [] (r.bodies.map Body.dialect)).countP (fun q => q.2 = none) =
      ((withEarlier [] (r.bodies.map Body.dialect)).map Prod.snd).countP (fun o => o = none) := by
    rw [List.countP_map]
    rfl
  rw [hsnd, Siblings.map_snd_withEarlier, List.countP_map]
  rfl

end Routine

/-! ## Types, schemas, definitions -/

namespace UserType

/-- The payloads of other kinds that a type fills in, and the base that a domain
lacks. -/
def mismatches (t : UserType) : Nat :=
  let labels := if t.labels = [] then 0 else 1
  let fields := if t.fields = [] then 0 else 1
  let base := if t.base = none then 0 else 1
  let checks := if t.checks = [] then 0 else 1
  match t.kind with
  | .enumeration => fields + base + checks
  | .composite => labels + base + checks
  | .domain => labels + fields + if t.base = none then 1 else 0

theorem tally_causes {t : UserType} {place : String} {c : Code} :
    tally c (t.causes.map fun cause => ⟨cause, place⟩) =
      if .typeKindMismatch = c then t.mismatches else 0 := by
  have hlength : t.strayPayload.length + (if t.kind == .domain && t.base.isNone then 1 else 0) =
      t.mismatches := by
    obtain ⟨name, kind, labels, fields, base, checks⟩ := t
    cases kind <;> cases labels <;> cases fields <;> cases base <;> cases checks <;> rfl
  have hcode : ∀ cause ∈ t.causes, cause.code = .typeKindMismatch := by
    intro cause hcause
    rcases List.mem_append.mp hcause with hstray | hbase
    · obtain ⟨payload, -, rfl⟩ := List.mem_map.mp hstray
      rfl
    · split at hbase
      · rw [List.mem_singleton.mp hbase, Cause.code]
      · cases hbase
  have hcauses : t.causes.length = t.mismatches := by
    rw [← hlength, causes, List.length_append, List.length_map]
    split <;> rfl
  rw [tally_map_const .typeKindMismatch hcode, hcauses]

end UserType

namespace Schema

theorem tally_missingDialect {s : Schema} :
    tally .bodyMissingDialect s.routineViolations =
      (s.routines.map fun r => r.bodies.countP fun body => body.dialect = none).sum := by
  unfold routineViolations
  rw [tally_flatMap]
  simp only [tally_map, Routine.countP_bodyCauses_missing]
  conv_rhs => rw [← Siblings.map_snd_withEarlier [] s.routines, List.map_map]
  rfl

theorem tally_repeatedRoutine {s : Schema} :
    tally .duplicateRoutine s.routineViolations =
      surplus (s.routines.flatMap Routine.declared) := by
  refine Siblings.countP_flatMap_withEarlier_nil
    (fun before r => (r.bodyCauses before).map fun cause =>
      (⟨cause, s.name ++ "." ++ r.signature⟩ : Violation)) _ Routine.declared ?_ s.routines
  intro before r
  rw [← Routine.countP_bodyCauses_add_card, List.countP_map]
  rfl

/-- Nothing else is wrong with routines. -/
theorem tally_routineViolations {s : Schema} {c : Code} :
    tally c s.routineViolations =
      (if .bodyMissingDialect = c then
        (s.routines.map fun r => r.bodies.countP fun body => body.dialect = none).sum else 0) +
      if .duplicateRoutine = c then surplus (s.routines.flatMap Routine.declared) else 0 := by
  by_cases hmissing : Code.bodyMissingDialect = c
  · subst hmissing
    simp [tally_missingDialect]
  by_cases hrepeated : Code.duplicateRoutine = c
  · subst hrepeated
    simp [tally_repeatedRoutine]
  · rw [if_neg hmissing, if_neg hrepeated, Nat.add_zero, tally_eq_zero_iff,
      unreported_routineViolations_iff]
    exact ⟨fun hc => absurd hc hmissing, fun hc => absurd hc hrepeated⟩

/-- How often a code is to be reported of a schema and its tables. -/
def count (s : Schema) : Code → Nat
  | .duplicateTable => surplus (s.tables.map fun t => Name.fold t.name)
  | .duplicateType => surplus (s.types.map fun t => Name.fold t.name)
  | .duplicateSequence => surplus (s.sequences.map fun q => Name.fold q.name)
  | .duplicateTrigger => surplus (s.triggers.map fun t => (Name.fold t.name, Name.fold t.table))
  | .duplicateView => surplus (s.views.map fun v => Name.fold v.name)
  | .duplicateRoutine => surplus (s.routines.flatMap Routine.declared)
  | .bodyMissingDialect =>
    (s.routines.map fun r => r.bodies.countP fun body => body.dialect = none).sum
  | .typeKindMismatch => (s.types.map UserType.mismatches).sum
  | c => (s.tables.map fun t => t.count c).sum

theorem tally_violations {s : Schema} {c : Code} : tally c s.violations = s.count c := by
  unfold violations typeViolations
  simp only [tally_append, tally_flatMap]
  rw [tally_repeatedAt .duplicateTable fun _ => rfl,
    tally_repeatedAt .duplicateType fun _ => rfl,
    tally_repeatedAt .duplicateSequence fun _ => rfl,
    tally_repeatedAt .duplicateTrigger fun _ => rfl,
    tally_repeatedAt .duplicateView fun _ => rfl,
    tally_routineViolations]
  have htriggers : (Siblings.repeated s.triggers).length = s.count .duplicateTrigger := by
    refine Siblings.length_repeated (fun a b => ?_) s.triggers
    rw [sameAs_iff_key]
    simp [Keyed.key, eq_comm]
  simp only [htriggers, Siblings.length_repeated_named, UserType.tally_causes,
    Table.tally_violations]
  cases c <;> simp [count, Table.count, Named.name]

end Schema

namespace Definition

/-- How often a code is to be reported of a definition, as it declares things. -/
def count (d : Definition) : Code → Nat
  | .duplicateSchema => surplus (d.schemas.map fun s => Name.fold s.name)
  | .duplicateLanguage => surplus (d.languages.map fun l => Name.fold l.name)
  | c => (d.schemas.map fun s => s.count c).sum

theorem tally_violations {d : Definition} {c : Code} : tally c d.violations = d.count c := by
  unfold violations
  simp only [tally_append, tally_flatMap]
  rw [tally_repeatedAt .duplicateSchema fun _ => rfl,
    tally_repeatedAt .duplicateLanguage fun _ => rfl]
  simp only [Siblings.length_repeated_named, Schema.tally_violations]
  cases c <;> simp [count, Schema.count, Table.count, Named.name]

/-- **Sound and complete.** Validation reports each code as often as the
definition gives cause for it, and accepts a definition exactly if it gives cause
for none. -/
theorem violations_counted (d : Definition) :
    (∀ c, tally c d.violations = d.count c) ∧
      (d.validate = .ok () ↔ ∀ c, d.count c = 0) := by
  refine ⟨fun c => tally_violations, ?_⟩
  rw [validate_eq_ok_iff]
  refine forall_congr' fun c => ?_
  rw [← unreported_iff, ← tally_eq_zero_iff, tally_violations]

end Definition

end LayeredSchema
