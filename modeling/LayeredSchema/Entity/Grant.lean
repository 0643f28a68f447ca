import LayeredSchema.Name

/-!
# Grants

A grant gives permissions on the entity that carries it to some roles. Grants are known by
nothing, so layers only ever add them; `equivalent` tells two of them apart as far as the
database would.
-/

namespace LayeredSchema

/-- Permissions given to roles. -/
structure Grant where
  roles : List String := []
  permissions : List String := []
  withGrantOption : Bool := false
deriving DecidableEq

namespace Grant

/-- A grant of permissions to roles, without the right to pass them on. -/
def ofPermissions (roles permissions : List String) : Grant :=
  { roles := roles, permissions := permissions }

/-- The grant with the right to pass it on. -/
def passable (g : Grant) : Grant := { g with withGrantOption := true }

/-- Whether two grants come to the same, whatever the order and case of roles and
permissions. -/
def equivalent (a b : Grant) : Bool :=
  a.withGrantOption == b.withGrantOption && Name.sameSet a.roles b.roles &&
    Name.sameSet a.permissions b.permissions

end Grant

end LayeredSchema
