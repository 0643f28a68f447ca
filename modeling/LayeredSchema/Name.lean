/-!
# Names

Every name of the domain (a schema, a table, a role, a data type) compares without regard to
the case of ASCII letters, and of those letters only: `É` and `é` stay two names. `fold` maps
a name to the lower-case spelling that stands for all of its variants, so that `same` is
equality after folding and inherits its laws.
-/

namespace LayeredSchema.Name

/-- The spelling that stands for every case variant of a name: ASCII letters in lower case. -/
def fold (name : String) : String := String.ofList (name.toList.map Char.toLower)

/-- Whether two names denote the same thing. -/
def same (a b : String) : Bool := fold a == fold b

/-- Whether two lists of names agree position by position. -/
def sameList (a b : List String) : Bool := a.map fold == b.map fold

/-- Whether some name of the list is the given one. -/
def isIn (name : String) (names : List String) : Bool := names.any fun other => same other name

/-- Whether two lists hold the same names, whatever their order and repetitions. -/
def sameSet (a b : List String) : Bool :=
  (a.all fun name => isIn name b) && b.all fun name => isIn name a

theorem same_iff {a b : String} : same a b = true ↔ fold a = fold b := by
  simp [same]

theorem same_self (name : String) : same name name = true := same_iff.mpr rfl

theorem same_trans {a b c : String} (hab : same a b = true) (hbc : same b c = true) :
    same a c = true :=
  same_iff.mpr ((same_iff.mp hab).trans (same_iff.mp hbc))

/-- Only the blank name is a spelling of it. -/
theorem fold_eq_blank_iff {name : String} : fold name = "" ↔ name = "" := by
  rw [fold, String.ofList_eq_empty_iff, List.map_eq_nil_iff, String.toList_eq_nil_iff]

theorem sameList_iff {a b : List String} : sameList a b = true ↔ a.map fold = b.map fold := by
  simp [sameList]

theorem isIn_iff {name : String} {names : List String} :
    isIn name names = true ↔ ∃ other ∈ names, fold other = fold name := by
  simp [isIn, same]

end LayeredSchema.Name
