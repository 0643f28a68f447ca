import LayeredSchema.Validation.Violation

/-!
# Validation

`Definition.violations` lists everything that is wrong with a definition, in a fixed order:
first what the definition repeats, then schema by schema what the schema repeats, its routines,
its types and its tables. Nothing is ever corrected, and what is wrong in one place never hides
what is wrong in another.

Routines are not simply siblings. Two of one signature may stand side by side as long as they
have no dialect in common; so what is wrong with a routine is found body by body
(`bodyCauses`), each against the bodies before it and the routines before its own.
-/

namespace LayeredSchema

open Violation (Cause)

/-- One violation at a place for each sibling that repeats an earlier one. -/
def repeatedAt {α : Type} [Identity α] (place : String) (cause : α → Cause) (siblings : List α) :
    List Violation :=
  (Siblings.repeated siblings).map fun sibling => ⟨cause sibling, place⟩

namespace Routine

/-- What is wrong with one body, given the dialects of the bodies before it and the routines
before its own. -/
def bodyCause? (routine : Routine) (before : List Routine) (seen : List (Option Dialect)) :
    Option Dialect → Option Cause
  | none => some .dialectMissing
  | some dialect =>
    if seen.contains (some dialect) then some (.bodyRepeated dialect)
    else if before.any fun earlier =>
        earlier.sameSignature routine && (earlier.bodyFor dialect).isSome then
      some (.routineRepeated dialect)
    else none

/-- What is wrong with the bodies of a routine, given the routines before it. -/
def bodyCauses (routine : Routine) (before : List Routine) : List Cause :=
  (Siblings.withEarlier [] (routine.bodies.map Body.dialect)).filterMap fun (seen, dialect) =>
    routine.bodyCause? before seen dialect

end Routine

namespace UserType

/-- What is wrong with a type: payload of another kind, and a domain that narrows nothing. -/
def causes (t : UserType) : List Cause :=
  t.strayPayload.map (.payloadStray t.kind) ++
    if t.kind == .domain && t.base.isNone then [.baseMissing] else []

end UserType

namespace ForeignKey

/-- What is wrong with a foreign key of a table. -/
def causes (fk : ForeignKey) : List Cause :=
  (if fk.name = "" then [.foreignKeyNameless fk.foreignTable] else []) ++
    if fk.columns = [] then [.foreignKeyEmpty fk.name] else []

end ForeignKey

namespace Column

/-- Whether the column has parts of a foreign key without the table that would make it one. -/
def isForeignKeyIncomplete (c : Column) : Bool := c.mentionsForeignKey && !c.hasForeignKey

end Column

namespace RowBlock

/-- One cause for each malformed row. -/
def causes (block : RowBlock) : List Cause :=
  block.rows.zipIdx.filterMap fun (row, i) =>
    if row.values.length = block.columns.length then none
    else some (.rowMalformed (i + 1) row.values.length block.columns.length)

end RowBlock

namespace Table

/-- The foreign keys that have a name; only these can repeat each other. -/
def namedForeignKeys (t : Table) : List ForeignKey := t.foreignKeys.filter fun fk => fk.name != ""

/-- The columns of the primary key that the table does not have. A child may have them from its
parent, and is not asked. -/
def unknownKeyColumns (t : Table) : List String :=
  if t.hasParent then [] else t.primaryKey.filter fun name => (t.column? name).isNone

/-- Everything that is wrong with a table of the schema of the given name. -/
def violations (schema : String) (t : Table) : List Violation :=
  let place := schema ++ "." ++ t.name
  repeatedAt place (fun c : Column => .columnRepeated c.name) t.columns ++
  repeatedAt place (fun i : Index => .indexRepeated i.name) t.indexes ++
  repeatedAt place (fun c : Constraint => .constraintRepeated c.name) t.constraints ++
  repeatedAt place (fun fk : ForeignKey => .foreignKeyRepeated fk.name) t.namedForeignKeys ++
  t.foreignKeys.flatMap (fun fk => fk.causes.map fun cause => ⟨cause, place⟩) ++
  (t.columns.filter Column.isForeignKeyIncomplete).map
    (fun c => ⟨.columnForeignKeyIncomplete, place ++ "." ++ c.name⟩) ++
  t.unknownKeyColumns.map (fun name => ⟨.keyColumnUnknown name, place⟩) ++
  t.rows.toList.flatMap fun block => block.causes.map fun cause => ⟨cause, place⟩

end Table

namespace Schema

/-- What is wrong with the routines of a schema. -/
def routineViolations (s : Schema) : List Violation :=
  (Siblings.withEarlier [] s.routines).flatMap fun (before, routine) =>
    (routine.bodyCauses before).map fun cause => ⟨cause, s.name ++ "." ++ routine.signature⟩

/-- What is wrong with the types of a schema. -/
def typeViolations (s : Schema) : List Violation :=
  s.types.flatMap fun t => t.causes.map fun cause => ⟨cause, s.name ++ "." ++ t.name⟩

/-- Everything that is wrong with a schema. -/
def violations (s : Schema) : List Violation :=
  repeatedAt s.name (fun t : Table => .tableRepeated t.name) s.tables ++
  repeatedAt s.name (fun t : UserType => .typeRepeated t.name) s.types ++
  repeatedAt s.name (fun q : Sequence => .sequenceRepeated q.name) s.sequences ++
  repeatedAt s.name (fun t : Trigger => .triggerRepeated t.name t.table) s.triggers ++
  repeatedAt s.name (fun v : View => .viewRepeated v.name) s.views ++
  s.routineViolations ++ s.typeViolations ++ s.tables.flatMap (Table.violations s.name)

end Schema

namespace Definition

/-- Everything that is wrong with a definition. -/
def violations (d : Definition) : List Violation :=
  repeatedAt "definition" (fun s : Schema => .schemaRepeated s.name) d.schemas ++
  repeatedAt "definition" (fun l : Language => .languageRepeated l.name) d.languages ++
  d.schemas.flatMap Schema.violations

/-- The definition if nothing is wrong with it, and otherwise all that is. -/
def validate (d : Definition) : Except (List Violation) Unit :=
  if d.violations.isEmpty then .ok () else .error d.violations

end Definition

end LayeredSchema
