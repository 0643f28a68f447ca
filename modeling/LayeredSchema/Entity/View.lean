import LayeredSchema.Entity.Grant
import LayeredSchema.Identity

/-!
# Views

A view has a query for each dialect that it is written for.
-/

namespace LayeredSchema

/-- The query of a view, for one dialect. -/
structure View.Query where
  dialect : Dialect
  text : String
deriving DecidableEq

instance : Keyed View.Query Dialect where
  key q := some q.dialect

/-- A view of a schema. -/
structure View where
  name : String
  owner : String := ""
  description : String := ""
  queries : List View.Query := []
  /-- The names of the views that must be there before this one is created. -/
  dependsOn : List String := []
  grants : List Grant := []
deriving DecidableEq

instance : Named View := ⟨View.name⟩

namespace View

def withQuery (v : View) (dialect : Dialect) (text : String) : View :=
  { v with queries := v.queries ++ [⟨dialect, text⟩] }

/-- The query of the view for a dialect: the first one listed for it. -/
def queryFor (v : View) (dialect : Dialect) : Option String :=
  (v.queries.find? fun query => query.dialect == dialect).map Query.text

end View

instance : Comparable View where
  equalFor dialect a b :=
    Identity.sameAs a b && Name.same a.owner b.owner &&
      agreeOption Text.sameTrimmed (a.queryFor dialect) (b.queryFor dialect)

end LayeredSchema
