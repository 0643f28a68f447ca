import LayeredSchema.Reference.Inheritance

/-!
# Keys

A `Key` is a reference to columns that has been followed: a table, and slots of columns that
the table declares or inherits. `Key.target` follows a foreign key from its local columns to
the foreign ones, `ColumnSlot.targetKey` one that a column declares, and
`TableSlot.targetKey` one that a table declares. `ColumnSlot.terminal` goes on from proxy to
proxy until it meets a column with a type.
-/

namespace LayeredSchema

/-- Columns of a table, some of them perhaps inherited. -/
structure Key (d : Definition) where
  table : TableSlot d
  columns : List (ColumnSlot d)
deriving DecidableEq

namespace Key

variable {d : Definition}

/-- The names of the columns, as they were declared. -/
def names (k : Key d) : List String := k.columns.map fun c => c.column.name

/-- The key as error texts show it: `schema.table(first, second)`. -/
def text (k : Key d) : String :=
  k.table.qualifiedName ++ "(" ++ ", ".intercalate k.names ++ ")"

/-- The key with the names of its parts, for people to tell keys by. -/
def describe (k : Key d) : String :=
  "Key \x7b schema: " ++ Text.quoted k.table.schema.name ++ ", table: " ++
    Text.quoted k.table.table.name ++ ", columns: [" ++
    ", ".intercalate (k.names.map Text.quoted) ++ "] \x7d"

end Key

namespace TableSlot

variable {d : Definition}

/-- The key over columns of the given names, on behalf of a referrer. -/
def keyOver (t : TableSlot d) (referrer : String) (names : List String) :
    Except ResolveError (Key d) := do
  return ⟨t, ← names.mapM (t.requireColumn referrer)⟩

/-- The key over columns of the given names, for which the table answers itself. -/
def localKey (t : TableSlot d) (names : List String) : Except ResolveError (Key d) :=
  t.keyOver t.qualifiedName names

end TableSlot

/-- The names of the foreign columns of a key: those listed, and the local name for each that
is blank or, if none are listed, for all of them. -/
def foreignNames (localNames listed : List String) : List String :=
  if listed = [] then localNames
  else List.zipWith (fun own name => if name = "" then own else name) localNames listed

namespace Key

variable {d : Definition}

/-- The key that a foreign key over these columns leads to, for a key that has columns. -/
def reach (k : Key d) (ref : KeyRef) (referrer : String) : Except ResolveError (Key d) := do
  let table ← d.findTable k.table.schemaAt ref.schema ref.table referrer
  if ref.columns ≠ [] ∧ ref.columns.length ≠ k.columns.length then
    .error (.countMismatch referrer ref.text k.columns.length ref.columns.length)
  else table.keyOver referrer (foreignNames k.names ref.columns)

/-- The key that a foreign key over these columns leads to. -/
def targetFor (k : Key d) (ref : KeyRef) (referrer : String) : Except ResolveFailure (Key d) :=
  if k.columns = [] then .error (.misuse (.emptyLocalKey k.table.qualifiedName))
  else (k.reach ref referrer).mapError .unresolved

/-- Who refers, where a key is followed: the one column of the key or else the whole of it, and
then the name of the constraint. -/
def referrer (k : Key d) (ref : KeyRef) : String :=
  let own := match k.columns with
    | [c] => k.table.qualifiedName ++ "." ++ c.column.name
    | _ => k.text
  if ref.name = "" then own else own ++ " (" ++ ref.name ++ ")"

/-- The key that a foreign key over these columns leads to, and for which they answer. -/
def target (k : Key d) (ref : KeyRef) : Except ResolveFailure (Key d) :=
  k.targetFor ref (k.referrer ref)

end Key

/-- The key that the foreign key of a column leads to. -/
def ColumnSlot.targetKey {d : Definition} (c : ColumnSlot d) : Except ResolveFailure (Key d) :=
  match c.column.foreignKey? with
  | none => .error (.misuse (.noForeignKey c.qualifiedName))
  | some ref => Key.targetFor ⟨c.owner, [c]⟩ ref c.qualifiedName

/-- The key that a foreign key of a table leads to. -/
def TableSlot.targetKey {d : Definition} (t : TableSlot d) (fk : ForeignKey) :
    Except ResolveFailure (Key d) :=
  if fk.columns = [] then .error (.unresolved (.emptyKey t.qualifiedName fk.name))
  else do
    let referrer := t.referrer fk.name
    let own ← (t.keyOver referrer fk.columns).mapError .unresolved
    own.targetFor fk.target referrer

namespace ColumnSlot

variable {d : Definition}

/-- Whether the chain of proxies that began at `start` ends with the column that this one refers
to, and how. -/
def terminalStep (start : String) (c : ColumnSlot d) :
    Except ResolveFailure (Link (ColumnSlot d) (ColumnSlot d)) := do
  let key ← c.targetKey
  match key.columns with
  | [] => .error (.misuse (.emptyLocalKey key.table.qualifiedName))
  | foreign :: _ =>
    if foreign.column.type.isSome then .ok (.stop foreign)
    else if foreign.column.hasForeignKey then .ok (.next foreign)
    else .error (.unresolved (.untypedColumn start foreign.qualifiedName))

/-- The first column with a type that is reached by following foreign keys from this one. -/
def terminal (c : ColumnSlot d) : Except ResolveFailure (ColumnSlot d) :=
  follow (terminalStep c.qualifiedName)
    (fun revisited => .unresolved (.foreignKeyCycle c.qualifiedName revisited.qualifiedName))
    (d.columnSlots.erase c) c

end ColumnSlot

end LayeredSchema
