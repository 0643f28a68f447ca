import LayeredSchema.Proofs.Access
import LayeredSchema.Proofs.Overlay.Align
import LayeredSchema.Proofs.Overlay.Rows

/-!
# Rows land within bounds

Laying a row block over another one reads and writes by position: where a column of the layer
stands in the result, what a row of the layer holds in the columns of the key, what a row of the
result holds there, and where a row of the layer is written. Three lengths are at play (the
columns of the layer, those of the result, and the length that a row happens to have), and rows
and columns are added on the way.

`RowBlock.overlayGuarded` is the overlay written out with an access that fails out of range. It
never fails, and comes to the same (`overlay_within_bounds`): every column of the layer has a
place in the result (`lt_of_mem_positions`), a position in the key is one of a column of the layer
(`InBounds`), and the only row that is written into is one of the width of the result, found by
that width or made to it.
-/

namespace LayeredSchema.RowBlock

/-! ## Guarded access -/

/-- Where the columns of a key stand in the rows of the layer and in those of the result. -/
def locateKey (layer : RowBlock) (positions : List Nat) :
    List String → Except OutOfRange (Option (List (Nat × Nat)))
  | [] => .ok (some [])
  | name :: rest =>
    match layer.columnIndex? name with
    | none => .ok none
    | some i => do
      let p ← readAt positions i
      let keys ← locateKey layer positions rest
      return keys.map ((i, p) :: ·)

/-- Where the columns of the primary key stand, if there is one and the layer has them all. -/
def keyPositionsGuarded (primaryKey : List String) (layer : RowBlock) (positions : List Nat) :
    Except OutOfRange (Option (List (Nat × Nat))) :=
  if primaryKey.isEmpty then .ok none else locateKey layer positions primaryKey

/-- Whether a row holds the values of another one in the columns of a key, one after the other
and up to the first that it does not. -/
def holdsGuarded (row existing : Row) : List (Nat × Nat) → Except OutOfRange Bool
  | [] => .ok true
  | k :: rest => do
    let value ← readAt row.values k.1
    if value.isSome then
      let held ← readAt existing.values k.2
      if held = value then holdsGuarded row existing rest else .ok false
    else .ok false

/-- Whether a row has the given width and holds the key of another one. -/
def holdsKeyGuarded (width : Nat) (keys : List (Nat × Nat)) (row existing : Row) :
    Except OutOfRange Bool :=
  if existing.values.length = width then holdsGuarded row existing keys else .ok false

/-- Where the first row stands that holds the key of a row. -/
def findHolder (width : Nat) (keys : List (Nat × Nat)) (row : Row) :
    List Row → Except OutOfRange (Option Nat)
  | [] => .ok none
  | existing :: rest => do
    if ← holdsKeyGuarded width keys row existing then return some 0
    return (← findHolder width keys row rest).map (· + 1)

/-- The row that a row of the layer lands on, if there is a key to find one by. -/
def findTarget (width : Nat) (keys : Option (List (Nat × Nat))) (row : Row) (rows : List Row) :
    Except OutOfRange (Option Nat) :=
  match keys with
  | none => .ok none
  | some keys => findHolder width keys row rows

/-- The rows with a row of the layer written over the one at a position, value by value. -/
def writeOver (positions : List Nat) (row : Row) (rows : List Row) (i : Nat) :
    Except OutOfRange (List Row) := do
  let existing ← readAt rows i
  let values ← (positions.zip row.values).foldlM (fun values q => writeAt values q.1 q.2)
    existing.values
  writeAt rows i { values := values, deleted := row.deleted }

/-- One row of the layer lands on the row that holds its key, or else on a fresh one. -/
def landGuarded (layerWidth width : Nat) (positions : List Nat)
    (keys : Option (List (Nat × Nat))) (rows : List Row) (row : Row) :
    Except OutOfRange (List Row) :=
  if row.values.length = layerWidth then do
    match ← findTarget width keys row rows with
    | some i => writeOver positions row rows i
    | none => writeOver positions row (rows ++ [pad width ⟨[], false⟩]) rows.length
  else .ok (rows ++ [row])

/-- A row block with another one laid over it. -/
def overlayGuarded (primaryKey : List String) (base layer : RowBlock) :
    Except OutOfRange RowBlock := do
  let aligned := align base.columns layer.columns
  let width := aligned.columns.length
  let keys ← keyPositionsGuarded primaryKey layer aligned.positions
  let rows ← layer.rows.foldlM
    (landGuarded layer.columns.length width aligned.positions keys) (base.padded width)
  return { columns := aligned.columns, rows := rows }

/-! ## Positions -/

theorem length_positions (columns layer : List String) :
    (align columns layer).positions.length = layer.length := by
  rw [positions_align, List.length_map]

/-- Every column of the layer has a place in the result. -/
theorem lt_of_mem_positions {columns layer : List String} {p : Nat}
    (h : p ∈ (align columns layer).positions) : p < (align columns layer).columns.length := by
  rw [positions_align] at h
  obtain ⟨column, hcolumn, rfl⟩ := List.mem_map.mp h
  exact (found_align columns hcolumn).columnAt_lt

theorem columnIndex?_lt {block : RowBlock} {name : String} {i : Nat}
    (h : block.columnIndex? name = some i) : i < block.columns.length :=
  (List.findIdx?_eq_some_iff_getElem.mp h).1

/-- The positions of a key are within rows of the layer and within rows of the result. -/
def InBounds (layerWidth width : Nat) (keys : List (Nat × Nat)) : Prop :=
  ∀ k ∈ keys, k.1 < layerWidth ∧ k.2 < width

section Key

variable {layer : RowBlock} {positions : List Nat} {width : Nat}

/-- Nothing is looked up but columns of the layer, each of which has a position. -/
theorem locateKey_eq (hlength : positions.length = layer.columns.length) (names : List String) :
    locateKey layer positions names = .ok (names.mapM fun name => do
      let i ← layer.columnIndex? name
      let p ← positions[i]?
      return (i, p)) := by
  induction names with
  | nil => rfl
  | cons name rest ih =>
    rw [locateKey, List.mapM_cons]
    cases hindex : layer.columnIndex? name with
    | none => rfl
    | some i =>
      have hi : i < positions.length := hlength ▸ columnIndex?_lt hindex
      simp only [readAt_of_lt hi, ih, ok_bind, Option.bind_eq_bind, Option.bind_some,
        List.getElem?_eq_getElem hi, Option.pure_def]
      cases rest.mapM (m := Option) _ <;> rfl

theorem keyPositionsGuarded_eq (hlength : positions.length = layer.columns.length)
    (primaryKey : List String) :
    keyPositionsGuarded primaryKey layer positions =
      .ok (keyPositions primaryKey layer positions) := by
  unfold keyPositionsGuarded keyPositions
  split
  next => rfl
  next => exact locateKey_eq hlength primaryKey

theorem inBounds_of_mapM {names : List String} {keys : List (Nat × Nat)}
    (hpositions : ∀ p ∈ positions, p < width)
    (h : (names.mapM fun name => do
      let i ← layer.columnIndex? name
      let p ← positions[i]?
      return (i, p)) = some keys) : InBounds layer.columns.length width keys := by
  induction names generalizing keys with
  | nil =>
    obtain rfl : [] = keys := by simpa using h
    exact fun k hk => absurd hk List.not_mem_nil
  | cons name rest ih =>
    simp only [List.mapM_cons, Option.bind_eq_bind, Option.bind_eq_some_iff,
      Option.pure_def, Option.some.injEq] at h
    obtain ⟨k, ⟨i, hi, p, hp, rfl⟩, others, hothers, rfl⟩ := h
    refine List.forall_mem_cons.mpr ⟨⟨columnIndex?_lt hi, ?_⟩, ih hothers⟩
    exact hpositions p (List.mem_of_getElem? hp)

theorem inBounds_keyPositions {primaryKey : List String} {keys : List (Nat × Nat)}
    (hpositions : ∀ p ∈ positions, p < width)
    (h : keyPositions primaryKey layer positions = some keys) :
    InBounds layer.columns.length width keys := by
  unfold keyPositions at h
  split at h
  next => cases h
  next => exact inBounds_of_mapM hpositions h

end Key

/-! ## Rows -/

section Rows

variable {layerWidth width : Nat} {positions : List Nat} {keys : List (Nat × Nat)}
  {row existing : Row} {rows : List Row}

theorem readAt_values {i : Nat} (h : i < row.values.length) :
    readAt row.values i = .ok (row.value i) := by
  rw [readAt_of_lt h, Row.value, List.getElem?_eq_getElem h, Option.join_some]

theorem holdsGuarded_eq (h : InBounds row.values.length existing.values.length keys) :
    holdsGuarded row existing keys = .ok (keys.all fun k =>
      (row.value k.1).isSome && existing.value k.2 == row.value k.1) := by
  induction keys with
  | nil => rfl
  | cons k keys ih =>
    obtain ⟨⟨hi, hp⟩, hrest⟩ := List.forall_mem_cons.mp h
    rw [holdsGuarded, readAt_values hi, readAt_values hp, List.all_cons, ok_bind, ok_bind,
      ih hrest]
    by_cases hvalue : (row.value k.1).isSome
    · by_cases hheld : existing.value k.2 = row.value k.1
      · simp [hvalue, hheld]
      · simp [hvalue, hheld]
    · simp [hvalue]

theorem holdsKeyGuarded_eq (h : InBounds row.values.length width keys) :
    holdsKeyGuarded width keys row existing = .ok (holdsKey width keys row existing) := by
  unfold holdsKeyGuarded holdsKey
  by_cases hwidth : existing.values.length = width
  · rw [if_pos hwidth, holdsGuarded_eq (hwidth ▸ h), hwidth, beq_self_eq_true, Bool.true_and]
  · rw [if_neg hwidth, beq_false_of_ne hwidth, Bool.false_and]

theorem findHolder_eq (h : InBounds row.values.length width keys) (rows : List Row) :
    findHolder width keys row rows = .ok (rows.findIdx? (holdsKey width keys row)) := by
  induction rows with
  | nil => rfl
  | cons existing rows ih =>
    rw [findHolder, holdsKeyGuarded_eq h, ok_bind, List.findIdx?_cons, ih]
    cases holdsKey width keys row existing <;> rfl

/-- A row that is wide enough for the positions is written into where it stands. -/
theorem writeOver_eq {i : Nat} (hrow : rows[i]? = some existing)
    (hwide : ∀ p ∈ positions, p < existing.values.length) :
    writeOver positions row rows i = .ok (rows.set i (write positions row existing)) := by
  obtain ⟨hi, -⟩ := List.getElem?_eq_some_iff.mp hrow
  rw [writeOver, readAt_eq_ok_iff.mpr hrow, ok_bind,
    foldlM_writeAt fun q hq => hwide q.1 (List.of_mem_zip hq).1, ok_bind, writeAt_of_lt hi]
  rfl

/-- A row that is too narrow for a position is out of range. -/
example : writeOver [2] { values := [some "1"] } [{ values := [none, none] }] 0 =
    .error ⟨2, 2⟩ := by
  rfl

/-- An upsert that finds a row puts it back where it was found. -/
theorem upsert_of_findIdx? {p : Row → Bool} {f : Row → Row} {fresh : Row} {i : Nat}
    (h : rows.findIdx? p = some i) (hrow : rows[i]? = some row) :
    upsert p f fresh rows = rows.set i (f row) := by
  induction rows generalizing i with
  | nil => cases hrow
  | cons first rows ih =>
    rw [upsert_cons]
    rw [List.findIdx?_cons] at h
    by_cases hp : p first
    · rw [if_pos hp] at h ⊢
      obtain rfl : 0 = i := Option.some.inj h
      obtain rfl : first = row := Option.some.inj hrow
      rfl
    · rw [if_neg hp] at h ⊢
      obtain ⟨j, hj, rfl⟩ := Option.map_eq_some_iff.mp h
      rw [List.set_cons_succ, ih hj hrow]

theorem findTarget_eq {keys : Option (List (Nat × Nat))}
    (hkeys : ∀ k ∈ keys, InBounds row.values.length width k) :
    findTarget width keys row rows = .ok (rows.findIdx? fun existing =>
      keys.any fun keys => holdsKey width keys row existing) := by
  cases keys with
  | none => exact congrArg _ (List.findIdx?_eq_none_iff.mpr fun _ _ => rfl).symm
  | some k => exact findHolder_eq (hkeys k rfl) rows

/-- **One row lands within bounds.** A row that is found by a key has the width of the result,
and a fresh one is made to it. -/
theorem landGuarded_eq (hpositions : ∀ p ∈ positions, p < width)
    {keys : Option (List (Nat × Nat))} (hkeys : ∀ k ∈ keys, InBounds layerWidth width k) :
    landGuarded layerWidth width positions keys rows row =
      .ok (landRow layerWidth width positions keys rows row) := by
  unfold landGuarded landRow
  by_cases hrow : row.values.length = layerWidth
  · rw [if_pos hrow, if_pos hrow, findTarget_eq (hrow ▸ hkeys), ok_bind]
    cases hfound : rows.findIdx? fun existing => keys.any fun keys =>
        holdsKey width keys row existing with
    | none =>
      have hnone := List.findIdx?_eq_none_iff.mp hfound
      have hfresh : (pad width ⟨[], false⟩).values.length = width := length_pad (Nat.zero_le width)
      rw [upsert_of_none fun existing hexisting => by simp [hnone existing hexisting],
        writeOver_eq List.getElem?_concat_length (by rwa [hfresh]),
        List.set_append_right _ _ (Nat.le_refl _)]
      simp
    | some i =>
      obtain ⟨hi, hholds, -⟩ := List.findIdx?_eq_some_iff_getElem.mp hfound
      have hwidth : rows[i].values.length = width := by
        cases keys with
        | none => cases hholds
        | some k => exact eq_of_beq (Bool.and_eq_true_iff.mp hholds).1
      have hexisting := List.getElem?_eq_getElem hi
      rw [upsert_of_findIdx? hfound hexisting]
      exact writeOver_eq hexisting (by rwa [hwidth])
  · rw [if_neg hrow, if_neg hrow]

theorem foldlM_landGuarded_eq (hpositions : ∀ p ∈ positions, p < width)
    {keys : Option (List (Nat × Nat))} (hkeys : ∀ k ∈ keys, InBounds layerWidth width k)
    (landing : List Row) :
    landing.foldlM (landGuarded layerWidth width positions keys) rows =
      .ok (landing.foldl (landRow layerWidth width positions keys) rows) := by
  induction landing generalizing rows with
  | nil => rfl
  | cons row landing ih =>
    rw [List.foldlM_cons, landGuarded_eq hpositions hkeys, ok_bind, List.foldl_cons, ih]

theorem length_le_landRow {keys : Option (List (Nat × Nat))} :
    rows.length ≤ (landRow layerWidth width positions keys rows row).length := by
  unfold landRow
  split
  next =>
    rw [length_upsert]
    split <;> omega
  next => simp

theorem length_le_foldl_landRow {keys : Option (List (Nat × Nat))} (landing : List Row) :
    rows.length ≤ (landing.foldl (landRow layerWidth width positions keys) rows).length := by
  induction landing generalizing rows with
  | nil => exact Nat.le_refl _
  | cons row landing ih => exact Nat.le_trans length_le_landRow ih

end Rows

/-! ## Blocks -/

/-- **No access is out of range.** Whatever the columns and the rows of two blocks are, and
whatever the primary key, laying one over the other reads and writes within bounds at every
step, and no row of the base is lost. -/
theorem overlay_within_bounds (primaryKey : List String) (base layer : RowBlock) :
    overlayGuarded primaryKey base layer = .ok (overlay primaryKey base layer) ∧
      base.rows.length ≤ (overlay primaryKey base layer).rows.length := by
  have hpositions : ∀ p ∈ (align base.columns layer.columns).positions,
      p < (align base.columns layer.columns).columns.length := fun p => lt_of_mem_positions
  have hkeys : ∀ keys ∈ keyPositions primaryKey layer (align base.columns layer.columns).positions,
      InBounds layer.columns.length (align base.columns layer.columns).columns.length keys :=
    fun keys => inBounds_keyPositions hpositions
  constructor
  · simp only [overlayGuarded,
      keyPositionsGuarded_eq (length_positions base.columns layer.columns), ok_bind,
      foldlM_landGuarded_eq hpositions hkeys]
    rfl
  · have hpadded : (base.padded (align base.columns layer.columns).columns.length).length =
        base.rows.length := List.length_map _
    rw [← hpadded]
    exact length_le_foldl_landRow layer.rows

end LayeredSchema.RowBlock
