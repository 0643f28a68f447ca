import LayeredSchema.Entity.Schema

/-!
# Definitions

A definition is what one document declares, and also what a stack of documents comes to: the
schemas, the languages, settings of the database as a whole, and snippets of SQL that run at
some stage of a migration.
-/

namespace LayeredSchema

/-- The well-known roles of a database, and any others. -/
structure Roles where
  application : String := ""
  owner : String := ""
  replication : String := ""
  readOnly : String := ""
  custom : List String := []
deriving DecidableEq

namespace Roles

/-- Every role that is assigned. -/
def all (r : Roles) : List String :=
  [r.application, r.owner, r.replication, r.readOnly] ++ r.custom

/-- Whether a role is assigned. -/
def defines (r : Roles) (role : String) : Bool := Name.isIn role r.all

end Roles

/-- A parameter of the database's configuration. -/
structure Setting where
  name : String
  value : String
deriving DecidableEq

instance : Named Setting := ⟨Setting.name⟩

/-- What is declared of the database as a whole. -/
structure Database where
  dialect : Option Dialect := none
  roles : Option Roles := none
  settings : List Setting := []
deriving DecidableEq

/-- A language that routines are written in. -/
structure Language where
  name : String
  owner : String := ""
  trusted : Bool := false
  procedural : Bool := false
  handler : String := ""
  validator : String := ""
deriving DecidableEq

instance : Named Language := ⟨Language.name⟩

/-- A piece of SQL that belongs to no object. -/
structure Snippet where
  author : String := ""
  ticket : String := ""
  version : String := ""
  comment : String := ""
  stage : Option Stage := none
  text : String
deriving DecidableEq

/-- A snippet is known by its exact text, whoever wrote it and whenever it runs. -/
instance : Keyed Snippet String where
  key snippet := some snippet.text

/-- What one document, or a stack of them, declares. -/
structure Definition where
  database : Option Database := none
  schemas : List Schema := []
  languages : List Language := []
  snippets : List Snippet := []
deriving DecidableEq

namespace Definition

/-- The definition that declares nothing. -/
def empty : Definition := {}

def withSchema (d : Definition) (schema : Schema) : Definition :=
  { d with schemas := d.schemas ++ [schema] }

def schema? (d : Definition) (name : String) : Option Schema := Siblings.named? d.schemas name

def language? (d : Definition) (name : String) : Option Language :=
  Siblings.named? d.languages name

/-- The dialect that the database is declared for. -/
def dialect (d : Definition) : Option Dialect := d.database.bind Database.dialect

/-- How many tables there are in all schemas together. -/
def tableCount (d : Definition) : Nat := (d.schemas.flatMap Schema.tables).length

end Definition

end LayeredSchema
