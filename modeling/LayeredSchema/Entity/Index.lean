import LayeredSchema.Identity

/-!
# Indexes

An index covers *dimensions*, columns or expressions, in an order that matters. A partial
index has one condition for each dialect that it is restricted under.
-/

namespace LayeredSchema

namespace Index

/-- One column or expression that an index covers. -/
structure Dimension where
  name : String := ""
  isExpression : Bool := false
  value : String
deriving DecidableEq

/-- A dimension over a column. -/
def Dimension.column (value : String) : Dimension := { value := value }

/-- A dimension over an SQL expression. -/
def Dimension.expression (value : String) : Dimension := { isExpression := true, value := value }

/-- Whether two dimensions cover the same: expressions up to the blanks around them, columns
up to case. -/
def Dimension.same (a b : Dimension) : Bool :=
  a.isExpression == b.isExpression &&
    if a.isExpression then Text.sameTrimmed a.value b.value else Name.same a.value b.value

/-- What rows must satisfy to be indexed, for one dialect. -/
structure Condition where
  dialect : Dialect
  text : String
deriving DecidableEq

end Index

/-- An index of a table. -/
structure Index where
  name : String
  method : IndexMethod := default
  unique : Bool := false
  concurrently : Bool := false
  dimensions : List Index.Dimension := []
  conditions : List Index.Condition := []
deriving DecidableEq

instance : Named Index := ⟨Index.name⟩

namespace Index

/-- An index over columns. -/
def onColumns (name : String) (columns : List String) : Index :=
  { name := name, dimensions := columns.map Dimension.column }

/-- The index organised by another method. -/
def withMethod (i : Index) (method : IndexMethod) : Index := { i with method := method }

/-- The index as a unique one. -/
def asUnique (i : Index) : Index := { i with unique := true }

/-- The index with one more condition. -/
def withCondition (i : Index) (dialect : Dialect) (text : String) : Index :=
  { i with conditions := i.conditions ++ [⟨dialect, text⟩] }

/-- The condition of the index for a dialect: the first one listed for it. -/
def conditionFor (i : Index) (dialect : Dialect) : Option String :=
  (i.conditions.find? fun condition => condition.dialect == dialect).map Condition.text

end Index

instance : Comparable Index where
  equalFor dialect a b :=
    Identity.sameAs a b && a.method == b.method && a.unique == b.unique &&
      a.concurrently == b.concurrently &&
      agreeList Index.Dimension.same a.dimensions b.dimensions &&
      agreeOption Text.sameTrimmed (a.conditionFor dialect) (b.conditionFor dialect)

end LayeredSchema
