import LayeredSchema.Entity.RowBlock
import LayeredSchema.Siblings

/-!
# Layers over row blocks

The columns of the layer are matched with those of the base, and the ones that the base lacks
are added to it, with NULL in the rows that are there already. A row of the layer is then
written over the first row that holds its primary key, and becomes a row of its own if there is
none: because there is no key to go by (the table has no primary key, or the layer lacks one of
its columns), because a key value is NULL, or because no row has that key.

Malformed rows are never reshaped. Those of the base keep their values and those of the layer are
added as they are; what makes a row one of the result, with a key to be found by, is its length
and nothing else, so that a malformed row which happens to have it takes part like any other.
-/

namespace LayeredSchema

/-- The value at a position of a row; beyond the end of the row it is NULL. -/
def Row.value (row : Row) (i : Nat) : Option String := row.values[i]?.join

namespace RowBlock

/-- Columns grown by those of a layer, and where each column of the layer stands among them. -/
structure Alignment where
  columns : List String
  positions : List Nat
deriving DecidableEq

/-- Matches the columns of a layer with those of a base, growing the base where it lacks one. -/
def align (columns : List String) : List String → Alignment
  | [] => ⟨columns, []⟩
  | column :: rest =>
    match columns.findIdx? fun other => Name.same other column with
    | some i =>
      let aligned := align columns rest
      { aligned with positions := i :: aligned.positions }
    | none =>
      let aligned := align (columns ++ [column]) rest
      { aligned with positions := columns.length :: aligned.positions }

/-- Where the columns of the primary key stand in the rows of the layer and in those of the
result, unless the layer does not have them all or there is no key. -/
def keyPositions (primaryKey : List String) (layer : RowBlock) (positions : List Nat) :
    Option (List (Nat × Nat)) :=
  if primaryKey.isEmpty then none
  else primaryKey.mapM fun name => do
    let i ← layer.columnIndex? name
    let p ← positions[i]?
    return (i, p)

/-- A row of the given width with NULL in every column that it lacks. -/
def pad (width : Nat) (row : Row) : Row :=
  { row with values := row.values ++ List.replicate (width - row.values.length) none }

/-- The rows of a base, with the well-formed ones padded to a new width. -/
def padded (base : RowBlock) (width : Nat) : List Row :=
  base.rows.map fun row => if row.values.length = base.columns.length then pad width row else row

/-- Whether a row of the result holds the key of a row of the layer, which must not have NULL
in it. -/
def holdsKey (width : Nat) (keys : List (Nat × Nat)) (row existing : Row) : Bool :=
  existing.values.length == width && keys.all fun (i, p) =>
    (row.value i).isSome && existing.value p == row.value i

/-- A row with the values of a row of the layer written over it. -/
def write (positions : List Nat) (row existing : Row) : Row where
  values := (positions.zip row.values).foldl (fun values (p, value) => values.set p value)
    existing.values
  deleted := row.deleted

/-- The rows with the first one that satisfies `p` replaced by `f` of it, or with `f` of a
fresh row added if there is none. -/
def upsert (p : Row → Bool) (f : Row → Row) (fresh : Row) (rows : List Row) : List Row :=
  (Siblings.modifyFirst? p f rows).getD (rows ++ [f fresh])

/-- One row of the layer lands. -/
def landRow (layerWidth width : Nat) (positions : List Nat) (keys : Option (List (Nat × Nat)))
    (rows : List Row) (row : Row) : List Row :=
  if row.values.length = layerWidth then
    upsert (fun existing => keys.any fun keys => holdsKey width keys row existing)
      (write positions row) (pad width ⟨[], false⟩) rows
  else rows ++ [row]

/-- A row block with another one laid over it, in a table with the given primary key. -/
def overlay (primaryKey : List String) (base layer : RowBlock) : RowBlock :=
  let aligned := align base.columns layer.columns
  let width := aligned.columns.length
  let keys := keyPositions primaryKey layer aligned.positions
  { columns := aligned.columns
    rows := layer.rows.foldl (landRow layer.columns.length width aligned.positions keys)
      (base.padded width) }

end RowBlock

end LayeredSchema
