import LayeredSchema.Datum.Coded

/-!
# Sections of a settings file

The headers and dotted keys of a settings file build a tree of sections. What may still be
added to a section depends on how it came about (`Origin`): a header may not open a section
twice, nor one that dotted keys have made, and dotted keys may not reach into a section that a
header has opened or passed through. No key is ever given a second value.
-/

namespace LayeredSchema.Settings

/-- How a section came about. -/
inductive Origin where
  /-- By a header of its own. -/
  | header
  /-- On the way to the section of some header. -/
  | implied
  /-- On the way to the value of a dotted key. -/
  | dotted
deriving DecidableEq

/-- A value or a section. -/
inductive Tree where
  | value (datum : Datum)
  | branch (origin : Origin) (entries : List (String × Tree))

/-- The entries of a section. -/
abbrev Branches := List (String × Tree)

namespace Tree

/-- Changes the entry under a key, which `f` may find absent. -/
def change (key : String) (f : Option Tree → Option Tree) : Branches → Option Branches
  | [] => do return [(key, ← f none)]
  | (other, tree) :: rest =>
    if other = key then do return (other, ← f (some tree)) :: rest
    else do return (other, tree) :: (← change key f rest)

/-- Gives a key its value, under the dotted path before it. -/
def put (datum : Datum) (key : String) : (path : List String) → Branches → Option Branches
  | [] => change key fun
    | none => some (.value datum)
    | some _ => none
  | name :: path => change name fun
    | none => (put datum key path []).map (branch .dotted)
    | some (branch .dotted entries) => (put datum key path entries).map (branch .dotted)
    | some (branch .implied entries) =>
      if path = [] then none else (put datum key path entries).map (branch .implied)
    | some _ => none

/-- Opens the section of a header. -/
def openSection : (path : List String) → Branches → Option Branches
  | [] => fun _ => none
  | [name] => change name fun
    | none => some (branch .header [])
    | some (branch .implied entries) => some (branch .header entries)
    | some _ => none
  | name :: path => change name fun
    | none => (openSection path []).map (branch .implied)
    | some (branch origin entries) => (openSection path entries).map (branch origin)
    | some (value _) => none

/-- Changes the entries of an open section. -/
def within (f : Branches → Option Branches) : (path : List String) → Branches → Option Branches
  | [] => f
  | name :: path => change name fun
    | some (branch origin entries) => (within f path entries).map (branch origin)
    | _ => none

mutual

/-- The tree as data: every section is a record. -/
def datum : Tree → Datum
  | value d => d
  | branch _ entries => .record (data entries)

/-- The entries of a section as data. -/
def data : List (String × Tree) → Entries
  | [] => []
  | (key, tree) :: rest => (key, tree.datum) :: data rest

end

end Tree

end LayeredSchema.Settings
