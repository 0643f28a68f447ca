import LayeredSchema.Entity.Definition

/-!
# Violations

What can be wrong with a definition although each of its documents could be read. A
`Violation` is a cause together with the place where it was found. Each cause has a `Code`,
which is stable and meant for programs, and a message, which is meant for people.
-/

namespace LayeredSchema

namespace Violation

/-- The kinds of violations. -/
inductive Code where
  | duplicateSchema
  | duplicateLanguage
  | duplicateTable
  | duplicateColumn
  | duplicateIndex
  | duplicateConstraint
  | duplicateForeignKey
  | duplicateType
  | duplicateSequence
  | duplicateRoutine
  | duplicateTrigger
  | duplicateView
  | typeKindMismatch
  | foreignKeyMissingName
  | foreignKeyMissingColumns
  | bodyMissingDialect
  | columnForeignKeyIncomplete
  | primaryKeyUnknownColumn
  | rowArity
deriving DecidableEq

namespace Code

/-- The stable spelling of a code. -/
def text : Code → String
  | duplicateSchema => "DUPLICATE_SCHEMA"
  | duplicateLanguage => "DUPLICATE_LANGUAGE"
  | duplicateTable => "DUPLICATE_TABLE"
  | duplicateColumn => "DUPLICATE_COLUMN"
  | duplicateIndex => "DUPLICATE_INDEX"
  | duplicateConstraint => "DUPLICATE_CONSTRAINT"
  | duplicateForeignKey => "DUPLICATE_FOREIGN_KEY"
  | duplicateType => "DUPLICATE_TYPE"
  | duplicateSequence => "DUPLICATE_SEQUENCE"
  | duplicateRoutine => "DUPLICATE_FUNCTION"
  | duplicateTrigger => "DUPLICATE_TRIGGER"
  | duplicateView => "DUPLICATE_VIEW"
  | typeKindMismatch => "TYPE_KIND_MISMATCH"
  | foreignKeyMissingName => "FOREIGN_KEY_MISSING_NAME"
  | foreignKeyMissingColumns => "FOREIGN_KEY_MISSING_COLUMNS"
  | bodyMissingDialect => "FUNCTION_DEFINITION_MISSING_FORMAT"
  | columnForeignKeyIncomplete => "COLUMN_FOREIGN_KEY_INCOMPLETE"
  | primaryKeyUnknownColumn => "PRIMARY_KEY_UNKNOWN_COLUMN"
  | rowArity => "DATA_ROW_ARITY"

/-- Whether a code reports that something is declared more than once. -/
def isDuplicate : Code → Bool
  | duplicateSchema | duplicateLanguage | duplicateTable | duplicateColumn | duplicateIndex
  | duplicateConstraint | duplicateForeignKey | duplicateType | duplicateSequence
  | duplicateRoutine | duplicateTrigger | duplicateView => true
  | _ => false

end Code

/-- What is wrong. -/
inductive Cause where
  | schemaRepeated (name : String)
  | languageRepeated (name : String)
  | tableRepeated (name : String)
  | columnRepeated (name : String)
  | indexRepeated (name : String)
  | constraintRepeated (name : String)
  | foreignKeyRepeated (name : String)
  | typeRepeated (name : String)
  | sequenceRepeated (name : String)
  | triggerRepeated (name table : String)
  | viewRepeated (name : String)
  /-- A routine has several bodies for one dialect. -/
  | bodyRepeated (dialect : Dialect)
  /-- An earlier routine of the same signature has a body for the dialect. -/
  | routineRepeated (dialect : Dialect)
  | dialectMissing
  | payloadStray (kind : TypeKind) (payload : UserType.Payload)
  | baseMissing
  | foreignKeyNameless (table : String)
  | foreignKeyEmpty (name : String)
  | columnForeignKeyIncomplete
  | keyColumnUnknown (column : String)
  /-- The row, counted from one, has as many values as given, for so many columns. -/
  | rowMalformed (row values columns : Nat)
deriving DecidableEq

namespace Cause

/-- The code that a cause is reported under. -/
def code : Cause → Code
  | schemaRepeated _ => .duplicateSchema
  | languageRepeated _ => .duplicateLanguage
  | tableRepeated _ => .duplicateTable
  | columnRepeated _ => .duplicateColumn
  | indexRepeated _ => .duplicateIndex
  | constraintRepeated _ => .duplicateConstraint
  | foreignKeyRepeated _ => .duplicateForeignKey
  | typeRepeated _ => .duplicateType
  | sequenceRepeated _ => .duplicateSequence
  | triggerRepeated _ _ => .duplicateTrigger
  | viewRepeated _ => .duplicateView
  | bodyRepeated _ => .duplicateRoutine
  | routineRepeated _ => .duplicateRoutine
  | dialectMissing => .bodyMissingDialect
  | payloadStray _ _ => .typeKindMismatch
  | baseMissing => .typeKindMismatch
  | foreignKeyNameless _ => .foreignKeyMissingName
  | foreignKeyEmpty _ => .foreignKeyMissingColumns
  | columnForeignKeyIncomplete => .columnForeignKeyIncomplete
  | keyColumnUnknown _ => .primaryKeyUnknownColumn
  | rowMalformed _ _ _ => .rowArity

/-- That a thing of some sort is declared more than once, in words. -/
def repeatedText (sort name : String) : String := s!"{sort} '{name}' is declared more than once"

/-- The cause in words. -/
def message : Cause → String
  | schemaRepeated name => repeatedText "schema" name
  | languageRepeated name => repeatedText "language" name
  | tableRepeated name => repeatedText "table" name
  | columnRepeated name => repeatedText "column" name
  | indexRepeated name => repeatedText "index" name
  | constraintRepeated name => repeatedText "constraint" name
  | foreignKeyRepeated name => repeatedText "foreign key" name
  | typeRepeated name => repeatedText "type" name
  | sequenceRepeated name => repeatedText "sequence" name
  | triggerRepeated name table => s!"trigger '{name}' on table '{table}' is declared more than once"
  | viewRepeated name => repeatedText "view" name
  | bodyRepeated dialect => s!"function has more than one {Keyword.word dialect} definition"
  | routineRepeated dialect => s!"function is declared more than once for {Keyword.word dialect}"
  | dialectMissing => "function definition does not declare a SQL format"
  | payloadStray kind payload => s!"{Keyword.word kind} type must not declare {payload.text}"
  | baseMissing => "domain type must declare a base type"
  | foreignKeyNameless table => s!"foreign key referencing '{table}' has no constraint name"
  | foreignKeyEmpty name => s!"foreign key '{name}' does not list any local columns"
  | columnForeignKeyIncomplete => "foreign key fields are set but no foreign table is named"
  | keyColumnUnknown column => s!"primary key column '{column}' does not exist"
  | rowMalformed row values columns =>
    s!"row {row} has {values} value(s) for {columns} column(s)"

end Cause

end Violation

/-- One thing that is wrong with a definition. -/
structure Violation where
  cause : Violation.Cause
  /-- The path to the entity at fault, such as `public.users.email`. -/
  place : String
deriving DecidableEq

namespace Violation

/-- The code that the violation is reported under. -/
def code (v : Violation) : Code := v.cause.code

/-- The violation in words, without its place. -/
def message (v : Violation) : String := v.cause.message

/-- The violation in full. -/
def text (v : Violation) : String := s!"[{v.code.text}] {v.place}: {v.message}"

/-- Violations as one report: their number, then one line for each. -/
def report (violations : List Violation) : String :=
  s!"{violations.length} validation error(s)" ++
    String.join (violations.map fun v => "\n  " ++ v.text)

end Violation

end LayeredSchema
