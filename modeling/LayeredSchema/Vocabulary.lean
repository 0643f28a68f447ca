import LayeredSchema.Keyword

/-!
# The vocabularies of a definition

The nine closed vocabularies that a definition draws on, each an enumeration with its
`Keyword` instance. Where leaving a field out has a meaning of its own, that member is the
type's `default`.
-/

namespace LayeredSchema

/-- The database product that a piece of SQL is written for. -/
inductive Dialect where
  | pgsql8 | mssql10 | mysql5
deriving DecidableEq

instance : Keyword Dialect where
  kind := "sql format"
  members := [.pgsql8, .mssql10, .mysql5]
  word
    | .pgsql8 => "pgsql8"
    | .mssql10 => "mssql10"
    | .mysql5 => "mysql5"

/-- How an index is organised. -/
inductive IndexMethod where
  | btree | hash | gin | gist
deriving DecidableEq

instance : Keyword IndexMethod where
  kind := "index type"
  members := [.btree, .hash, .gin, .gist]
  word
    | .btree => "btree"
    | .hash => "hash"
    | .gin => "gin"
    | .gist => "gist"

instance : Inhabited IndexMethod := ⟨.btree⟩

/-- What becomes of referring rows when a referenced row is updated or deleted. Blank text
means no action. -/
inductive ReferentialAction where
  | noAction | restrict | cascade | setNull | setDefault
deriving DecidableEq

instance : Keyword ReferentialAction where
  kind := "foreign key action"
  members := [.noAction, .restrict, .cascade, .setNull, .setDefault]
  word
    | .noAction => "NO ACTION"
    | .restrict => "RESTRICT"
    | .cascade => "CASCADE"
    | .setNull => "SET NULL"
    | .setDefault => "SET DEFAULT"
  aliases
    | .noAction => ["NO_ACTION"]
    | .setNull => ["SET_NULL"]
    | .setDefault => ["SET_DEFAULT"]
    | _ => []
  blank := some .noAction

instance : Inhabited ReferentialAction := ⟨.noAction⟩

/-- Which way a routine's parameter passes its value. Blank text means inward. -/
inductive Direction where
  | inward | outward | both
deriving DecidableEq

instance : Keyword Direction where
  kind := "function parameter direction"
  members := [.inward, .outward, .both]
  word
    | .inward => "IN"
    | .outward => "OUT"
    | .both => "INOUT"
  blank := some .inward

instance : Inhabited Direction := ⟨.inward⟩

/-- What a user-defined type is made of. -/
inductive TypeKind where
  | enumeration | composite | domain
deriving DecidableEq

instance : Keyword TypeKind where
  kind := "type kind"
  members := [.enumeration, .composite, .domain]
  word
    | .enumeration => "enum"
    | .composite => "composite"
    | .domain => "domain"

instance : Inhabited TypeKind := ⟨.enumeration⟩

/-- What a table constraint demands. -/
inductive ConstraintKind where
  | primaryKey | unique | check | foreignKey
deriving DecidableEq

instance : Keyword ConstraintKind where
  kind := "constraint type"
  members := [.primaryKey, .unique, .check, .foreignKey]
  word
    | .primaryKey => "PRIMARY KEY"
    | .unique => "UNIQUE"
    | .check => "CHECK"
    | .foreignKey => "FOREIGN KEY"

instance : Inhabited ConstraintKind := ⟨.check⟩

/-- On which side of its event a trigger fires. -/
inductive TriggerTiming where
  | before | after
deriving DecidableEq

instance : Keyword TriggerTiming where
  kind := "trigger timing"
  members := [.before, .after]
  word
    | .before => "BEFORE"
    | .after => "AFTER"

instance : Inhabited TriggerTiming := ⟨.after⟩

/-- Whether a trigger fires once a row or once a statement. -/
inductive TriggerLevel where
  | row | statement
deriving DecidableEq

instance : Keyword TriggerLevel where
  kind := "trigger granularity"
  members := [.row, .statement]
  word
    | .row => "ROW"
    | .statement => "STATEMENT"

instance : Inhabited TriggerLevel := ⟨.row⟩

/-- The point of a migration at which a free-standing snippet runs. -/
inductive Stage where
  | before1 | before2 | after1 | after2
deriving DecidableEq

instance : Keyword Stage where
  kind := "sql stage"
  members := [.before1, .before2, .after1, .after2]
  word
    | .before1 => "BEFORE1"
    | .before2 => "BEFORE2"
    | .after1 => "AFTER1"
    | .after2 => "AFTER2"

end LayeredSchema
