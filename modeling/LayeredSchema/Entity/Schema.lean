import LayeredSchema.Entity.Routine
import LayeredSchema.Entity.Sequence
import LayeredSchema.Entity.Table
import LayeredSchema.Entity.Trigger
import LayeredSchema.Entity.UserType
import LayeredSchema.Entity.View

/-!
# Schemas

A schema holds tables and every other kind of named object.
-/

namespace LayeredSchema

/-- A named collection of database objects. -/
structure Schema where
  name : String
  owner : String := ""
  description : String := ""
  tables : List Table := []
  types : List UserType := []
  sequences : List Sequence := []
  routines : List Routine := []
  triggers : List Trigger := []
  views : List View := []
  grants : List Grant := []
deriving DecidableEq

instance : Named Schema := ⟨Schema.name⟩

namespace Schema

/-- A schema of the given name with nothing in it. -/
def empty (name : String) : Schema := { name := name }

def withTable (s : Schema) (table : Table) : Schema := { s with tables := s.tables ++ [table] }

def withType (s : Schema) (type : UserType) : Schema := { s with types := s.types ++ [type] }

def withSequence (s : Schema) (sequence : Sequence) : Schema :=
  { s with sequences := s.sequences ++ [sequence] }

def withRoutine (s : Schema) (routine : Routine) : Schema :=
  { s with routines := s.routines ++ [routine] }

def withTrigger (s : Schema) (trigger : Trigger) : Schema :=
  { s with triggers := s.triggers ++ [trigger] }

def withView (s : Schema) (view : View) : Schema := { s with views := s.views ++ [view] }

def table? (s : Schema) (name : String) : Option Table := Siblings.named? s.tables name

def type? (s : Schema) (name : String) : Option UserType := Siblings.named? s.types name

def sequence? (s : Schema) (name : String) : Option Sequence :=
  Siblings.named? s.sequences name

def view? (s : Schema) (name : String) : Option View := Siblings.named? s.views name

/-- The routines of the given name, whatever their parameters. -/
def routinesNamed (s : Schema) (name : String) : List Routine :=
  s.routines.filter fun routine => Name.same routine.name name

/-- The triggers of a table. -/
def triggersOf (s : Schema) (table : String) : List Trigger :=
  s.triggers.filter fun trigger => Name.same trigger.table table

end Schema

end LayeredSchema
