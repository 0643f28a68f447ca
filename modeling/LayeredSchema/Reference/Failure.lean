/-!
# Failures of resolution

Why a reference by name leads nowhere. A `ResolveError` is a fault of the definition, and says
who referred to what; a `Misuse` is a question that makes no sense of any definition, such as
where a column without a foreign key refers to.
-/

namespace LayeredSchema

/-- A reference of the definition that leads nowhere. The referrer is the path of the entity
that refers. -/
inductive ResolveError where
  | unknownSchema (referrer schema : String)
  | unknownTable (referrer schema table : String)
  | unknownColumn (referrer schema table column : String)
  /-- A foreign key lists foreign columns, but not one for each local column. -/
  | countMismatch (referrer target : String) (localCount foreignCount : Nat)
  | emptyKey (referrer name : String)
  | inheritanceCycle (table : String)
  | foreignKeyCycle (start column : String)
  | untypedColumn (referrer column : String)
deriving DecidableEq

/-- The error in words. -/
def ResolveError.message : ResolveError → String
  | unknownSchema referrer schema => s!"Reference to unknown schema '{schema}' from '{referrer}'"
  | unknownTable referrer schema table =>
    s!"Reference to unknown table '{schema}.{table}' from '{referrer}'"
  | unknownColumn referrer schema table column =>
    s!"Reference to unknown column '{column}' on '{schema}.{table}' or its ancestors " ++
      s!"from '{referrer}'"
  | countMismatch referrer target localCount foreignCount =>
    s!"Foreign key {referrer} -> {target}: {localCount} local column(s) but " ++
      s!"{foreignCount} foreign column(s)"
  | emptyKey referrer name => s!"Foreign key '{name}' on '{referrer}' lists no local columns"
  | inheritanceCycle table => s!"Inheritance cycle through '{table}'"
  | foreignKeyCycle start column => s!"Foreign key chain from '{start}' loops back to '{column}'"
  | untypedColumn referrer column =>
    s!"Column '{column}' reached from '{referrer}' has no type and no foreign key to take " ++
      "one from"

/-- A question that has no answer in any definition. -/
inductive Misuse where
  /-- Where a key without columns refers to. -/
  | emptyLocalKey (table : String)
  /-- Where a column without a foreign key refers to. -/
  | noForeignKey (column : String)
deriving DecidableEq

/-- The misuse in words. -/
def Misuse.message : Misuse → String
  | emptyLocalKey table => s!"cannot resolve a foreign key for an empty local key on {table}"
  | noForeignKey column => s!"column {column} has no foreign key to resolve"

/-- Why a question about references was not answered. -/
inductive ResolveFailure where
  | unresolved (error : ResolveError)
  | misuse (misuse : Misuse)
deriving DecidableEq

end LayeredSchema
