import LayeredSchema.Proofs.Overlay.Upsert

/-!
# Rows without a key to go by

Rows are matched by the primary key, which needs both blocks to have it. If there is no primary
key, or a block lacks one of its columns (`Unkeyed`), no row of the layer should be written over
another one: all of them are to be appended, behind the rows of the base (`Appended`).

The rows of the base do stay what they are. Those of the layer are appended, too, unless two of
them share a key. For the base may lack a column of the key that the layer has. The key is looked
for in the columns of the result then, where no row of the base shows a value, but the rows of
the layer that have landed already do. So a later row of the layer is written over an earlier
one with its key (`Clash`). `overlay_unkeyed` says that this is the only exception, and
`not_appended_reopenings` that it is one.
-/

namespace LayeredSchema.RowBlock

/-- There is no primary key, or one of the blocks lacks a column of it. -/
def Unkeyed (primaryKey : List String) (base layer : RowBlock) : Prop :=
  primaryKey = [] ∨ ∃ name ∈ primaryKey, ¬ (Found base.columns name ∧ Found layer.columns name)

/-- What a row shows under a name: the value in the last column of the name. -/
def shown (block : RowBlock) (row : Row) (name : String) : Option String :=
  ((block.columns.zip row.values).filter fun cell => Name.same cell.1 name).getLast?.bind Prod.snd

/-- The new row shows the row of the layer and nothing else. The first column of each name has
what that row shows under the name, and all others have NULL. -/
structure Shows (layer : RowBlock) (columns : List String) (row new : Row) : Prop where
  deleted : new.deleted = row.deleted
  length : new.values.length = columns.length
  value : ∀ (i : Nat) (_ : i < columns.length), new.value i =
    if columnAt columns columns[i] = i then layer.shown row columns[i] else none

/-- All rows of the layer are appended: behind the rows of the base, which keep their values with
NULL in the columns that are added, there is one row for each row of the layer, in order. -/
structure Appended (primaryKey : List String) (base layer : RowBlock) : Prop where
  count : (overlay primaryKey base layer).rows.length = base.rows.length + layer.rows.length
  kept : (overlay primaryKey base layer).rows.take base.rows.length =
    base.rows.map (pad (overlay primaryKey base layer).columns.length)
  added : ∀ i row, layer.rows[i]? = some row →
    ∃ new, (overlay primaryKey base layer).rows[base.rows.length + i]? = some new ∧
      Shows layer (overlay primaryKey base layer).columns row new

/-- The later one of two rows of a layer has a key without NULL, and the earlier one shows the
same values under the names of the key. -/
structure Clash (primaryKey : List String) (layer : RowBlock) (earlier later : Row) : Prop where
  key_ne_nil : primaryKey ≠ []
  value : ∀ name ∈ primaryKey, later.value (columnAt layer.columns name) ≠ none ∧
    layer.shown earlier name = later.value (columnAt layer.columns name)

/-! ## Landing, whether there is a key or not -/

section Landing

variable {primaryKey columns : List String} {layer : RowBlock} {rows front landing : List Row}
  {row existing : Row}

/-- There is a key to go by, and an existing row holds that of the row. -/
def meets (primaryKey : List String) (layer : RowBlock) (columns : List String)
    (row existing : Row) : Bool :=
  !primaryKey.isEmpty && holds primaryKey layer columns row existing

/-- A row of the layer lands, by its key if there is one to go by. -/
def land (primaryKey : List String) (layer : RowBlock) (columns : List String)
    (rows : List Row) (row : Row) : List Row :=
  upsert (meets primaryKey layer columns row) (fill layer columns row)
    (pad columns.length ⟨[], false⟩) rows

/-- A row of the layer as a row of its own. -/
def alone (layer : RowBlock) (columns : List String) (row : Row) : Row :=
  fill layer columns row (pad columns.length ⟨[], false⟩)

theorem meets_iff : meets primaryKey layer columns row existing ↔
    primaryKey ≠ [] ∧ existing.values.length = columns.length ∧
      ∀ name ∈ primaryKey, row.value (columnAt layer.columns name) ≠ none ∧
        existing.value (columnAt columns name) = row.value (columnAt layer.columns name) := by
  rw [meets, Bool.and_eq_true, Bool.not_eq_true', List.isEmpty_eq_false_iff, holds_iff, keyOf,
    keyAt, List.map_inj_left, List.mem_map, not_exists]
  simp only [not_and, ← forall_and]

/-- A row shows nothing under a name that its block does not have. -/
theorem value_columnAt_of_not_found {block : RowBlock} {name : String}
    (hrow : row.values.length = block.columns.length) (hname : ¬ Found block.columns name)
    (hcolumns : block.columns <+: columns) : row.value (columnAt columns name) = none := by
  have hbeyond : row.values.length ≤ columnAt columns name := by
    by_contra hwithin
    have hlt : columnAt columns name < block.columns.length := by omega
    obtain ⟨added, rfl⟩ := hcolumns
    have hat : columnAt (block.columns ++ added) name < (block.columns ++ added).length := by
      rw [List.length_append]
      omega
    have hfold := fold_getElem_columnAt hat
    rw [List.getElem_append_left hlt] at hfold
    exact hname ⟨_, List.getElem_mem hlt, hfold⟩
  rw [Row.value, List.getElem?_eq_none hbeyond]
  rfl

theorem mapM_eq_none {α β : Type} {f : α → Option β} {l : List α} {a : α} (ha : a ∈ l)
    (h : f a = none) : l.mapM f = none := by
  induction l with
  | nil => exact absurd ha List.not_mem_nil
  | cons first rest ih =>
    rw [List.mapM_cons]
    rcases List.mem_cons.mp ha with rfl | ha
    · rw [h]
      rfl
    · rw [ih ha]
      cases f first <;> rfl

theorem keyPositions_of_not_found {name : String} (hname : name ∈ primaryKey)
    (hfound : ¬ Found layer.columns name) (positions : List Nat) :
    keyPositions primaryKey layer positions = none := by
  unfold keyPositions
  rw [if_neg (by simpa using List.ne_nil_of_mem hname)]
  refine mapM_eq_none hname ?_
  rw [columnIndex?, findIdx?_same_of_not_found hfound]
  rfl

/-- A row of the layer has no key to go by if there is none or a column of it is missing. In the
second case the row shows NULL in the key, so that it meets nothing. -/
theorem landRow_eq_land (hrow : row.values.length = layer.columns.length) :
    landRow layer.columns.length columns.length (layer.columns.map (columnAt columns))
        (keyPositions primaryKey layer (layer.columns.map (columnAt columns))) rows row =
      land primaryKey layer columns rows row := by
  have hmeets : ∀ existing, (keyPositions primaryKey layer (layer.columns.map
      (columnAt columns))).any (fun keys => holdsKey columns.length keys row existing) =
        meets primaryKey layer columns row existing := by
    intro existing
    by_cases hkey : primaryKey = []
    · subst hkey
      rfl
    rw [meets, List.isEmpty_eq_false_iff.mpr hkey, Bool.not_false, Bool.true_and]
    by_cases hfound : ∀ name ∈ primaryKey, Found layer.columns name
    · rw [keyPositions_of_found hkey hfound]
      rfl
    · simp only [not_forall] at hfound
      obtain ⟨name, hname, hnot⟩ := hfound
      rw [keyPositions_of_not_found hname hnot, Option.any_none, eq_comm, Bool.eq_false_iff]
      intro hheld
      have hnull := value_columnAt_of_not_found hrow hnot (List.prefix_refl _)
      exact (holds_iff.mp hheld).2.1 (List.mem_map.mpr ⟨name, hname, hnull⟩)
  rw [landRow, if_pos hrow]
  simp only [hmeets]
  rfl

theorem land_of_not_meets (h : ∀ existing ∈ rows, ¬ meets primaryKey layer columns row existing) :
    land primaryKey layer columns rows row = rows ++ [alone layer columns row] :=
  upsert_of_none h

/-- Rows that nothing lands on stay in front of those that land. -/
theorem foldl_land_append (rows : List Row)
    (h : ∀ row ∈ landing, ∀ existing ∈ front, ¬ meets primaryKey layer columns row existing) :
    landing.foldl (land primaryKey layer columns) (front ++ rows) =
      front ++ landing.foldl (land primaryKey layer columns) rows := by
  induction landing generalizing rows with
  | nil => rfl
  | cons row landing ih =>
    obtain ⟨hrow, hrest⟩ := List.forall_mem_cons.mp h
    have hpass : ¬ front.any (meets primaryKey layer columns row) := by
      rw [List.any_eq_true]
      intro h
      obtain ⟨existing, hexisting, hmeets⟩ := h
      exact hrow existing hexisting hmeets
    rw [List.foldl_cons, List.foldl_cons, land, upsert_append, if_neg hpass]
    exact ih _ hrest

theorem length_foldl_land_le :
    (landing.foldl (land primaryKey layer columns) rows).length ≤
      rows.length + landing.length := by
  induction landing generalizing rows with
  | nil => exact Nat.le_refl _
  | cons row landing ih =>
    have hone : (land primaryKey layer columns rows row).length ≤ rows.length + 1 := by
      rw [land, length_upsert]
      split <;> omega
    have hrest : (landing.foldl (land primaryKey layer columns)
        (land primaryKey layer columns rows row)).length ≤ _ := ih
    rw [List.foldl_cons, List.length_cons]
    omega

/-- All rows are appended if none of them meets another one. -/
theorem foldl_land_of_apart
    (hrows : ∀ row ∈ landing, ∀ existing ∈ rows, ¬ meets primaryKey layer columns row existing)
    (hlanding : landing.Pairwise fun earlier later =>
      ¬ meets primaryKey layer columns later (alone layer columns earlier)) :
    landing.foldl (land primaryKey layer columns) rows =
      rows ++ landing.map (alone layer columns) := by
  induction landing generalizing rows with
  | nil => exact (List.append_nil rows).symm
  | cons row landing ih =>
    obtain ⟨hrow, hrest⟩ := List.forall_mem_cons.mp hrows
    obtain ⟨hapart, hpairs⟩ := List.pairwise_cons.mp hlanding
    rw [List.foldl_cons, land_of_not_meets hrow, ih ?_ hpairs, List.append_assoc, List.map_cons,
      List.singleton_append]
    intro other hother
    exact List.forall_mem_append.mpr
      ⟨hrest other hother, List.forall_mem_singleton.mpr (hapart other hother)⟩

/-- If as many rows are there in the end as have landed, none of them meets another one. -/
theorem apart_of_length_foldl_land
    (h : (landing.foldl (land primaryKey layer columns) rows).length =
      rows.length + landing.length) :
    (∀ row ∈ landing, ∀ existing ∈ rows, ¬ meets primaryKey layer columns row existing) ∧
      landing.Pairwise fun earlier later =>
        ¬ meets primaryKey layer columns later (alone layer columns earlier) := by
  induction landing generalizing rows with
  | nil => exact ⟨fun row hrow => absurd hrow List.not_mem_nil, .nil⟩
  | cons row landing ih =>
    rw [List.foldl_cons, List.length_cons] at h
    have hle : (landing.foldl (land primaryKey layer columns)
        (land primaryKey layer columns rows row)).length ≤ _ := length_foldl_land_le
    -- the row cannot have met one that was there, as none would have been added for it
    have hrow : ∀ existing ∈ rows, ¬ meets primaryKey layer columns row existing := by
      intro existing hexisting hmeets
      have hsame : (land primaryKey layer columns rows row).length = rows.length := by
        rw [land, length_upsert, if_pos (List.any_eq_true.mpr ⟨existing, hexisting, hmeets⟩)]
      omega
    rw [land_of_not_meets hrow] at h
    obtain ⟨hrows, hpairs⟩ := ih (by rw [h, List.length_append, List.length_singleton]; omega)
    refine ⟨List.forall_mem_cons.mpr ⟨hrow, fun other hother => ?_⟩,
      List.pairwise_cons.mpr ⟨fun other hother => ?_, hpairs⟩⟩
    · exact (List.forall_mem_append.mp (hrows other hother)).1
    · exact (List.forall_mem_append.mp (hrows other hother)).2 _ (List.mem_singleton_self _)

end Landing

/-! ## What a row alone shows -/

section Alone

variable {primaryKey columns : List String} {layer : RowBlock} {row earlier later : Row}

/-- The last of the columns that stand at a position is what is read there. -/
theorem value_alone_eq {i : Nat} (hi : i < columns.length) :
    (alone layer columns row).value i =
      ((layer.columns.zip row.values).filter fun cell =>
        columnAt columns cell.1 = i).getLast?.bind Prod.snd := by
  have hnull : (pad columns.length ⟨[], false⟩).values[i]? = some none := by
    rw [pad, List.nil_append, List.getElem?_replicate, if_pos (by simpa using hi)]
  rw [Row.value]
  show (List.foldl _ (pad columns.length ⟨[], false⟩).values _)[i]?.join = _
  rw [getElem?_foldl_set_eq, hnull, List.zip_map_left, List.filter_map, List.getLast?_map]
  show ((((layer.columns.zip row.values).filter fun cell =>
    columnAt columns cell.1 = i).getLast?.map _).map Prod.snd).getD none = _
  cases ((layer.columns.zip row.values).filter fun cell =>
    columnAt columns cell.1 = i).getLast? <;> rfl

theorem length_alone : (alone layer columns row).values.length = columns.length :=
  (length_fill layer columns row _).trans (length_pad (Nat.zero_le _))

/-- A row alone shows what it has under each name, in the first column of the name. -/
theorem shows_alone (layer : RowBlock) (columns : List String) (row : Row) :
    Shows layer columns row (alone layer columns row) where
  deleted := rfl
  length := length_alone
  value i hi := by
    have hfold : ∀ name, columnAt columns name = i → Name.fold columns[i] = Name.fold name := by
      intro name hname
      subst hname
      exact fold_getElem_columnAt hi
    rw [value_alone_eq hi]
    split
    next hfirst =>
      have hcells : ∀ cell ∈ layer.columns.zip row.values,
          decide (columnAt columns cell.1 = i) = Name.same cell.1 columns[i] := by
        intro cell _
        rw [Bool.eq_iff_iff, decide_eq_true_eq, Name.same_iff]
        exact ⟨fun h => (hfold _ h).symm, fun h => (columnAt_congr h).trans hfirst⟩
      rw [shown, List.filter_congr hcells]
    next hfirst =>
      -- no name stands at a column that has the name of an earlier one
      rw [List.filter_eq_nil_iff.mpr, List.getLast?_nil, Option.bind_none]
      intro cell _ hcell
      have hcell := of_decide_eq_true hcell
      exact hfirst ((columnAt_congr (hfold _ hcell)).trans hcell)

/-- Names that are the same show the same. -/
theorem shown_congr {name other : String} (h : Name.fold name = Name.fold other) :
    layer.shown row name = layer.shown row other := by
  unfold shown Name.same
  rw [h]

/-- A row alone shows under a name of the layer what the row shows there. -/
theorem value_alone (hfound : ∀ column ∈ layer.columns, Found columns column) {name : String}
    (hname : Found layer.columns name) :
    (alone layer columns row).value (columnAt columns name) = layer.shown row name := by
  obtain ⟨column, hcolumn, hfold⟩ := hname
  have hlt : columnAt columns name < columns.length := by
    rw [← columnAt_congr hfold]
    exact (hfound column hcolumn).columnAt_lt
  have hat := fold_getElem_columnAt hlt
  rw [(shows_alone layer columns row).value _ hlt, if_pos (columnAt_congr hat), shown_congr hat]

/-- A later row meets an earlier one that stands alone if the two clash. -/
theorem meets_alone_iff (hfound : ∀ column ∈ layer.columns, Found columns column)
    (hlater : later.values.length = layer.columns.length) :
    meets primaryKey layer columns later (alone layer columns earlier) ↔
      Clash primaryKey layer earlier later := by
  have hvalues : ∀ name ∈ primaryKey,
      (later.value (columnAt layer.columns name) ≠ none ∧
        (alone layer columns earlier).value (columnAt columns name) =
          later.value (columnAt layer.columns name)) ↔
      later.value (columnAt layer.columns name) ≠ none ∧
        layer.shown earlier name = later.value (columnAt layer.columns name) := by
    intro name _
    by_cases hname : Found layer.columns name
    · rw [value_alone hfound hname]
    · have hnull := value_columnAt_of_not_found hlater hname (List.prefix_refl _)
      exact iff_of_false (fun h => h.1 hnull) fun h => h.1 hnull
  rw [meets_iff, and_iff_right length_alone]
  constructor
  · intro h
    obtain ⟨hkey, hvalue⟩ := h
    exact ⟨hkey, fun name hname => (hvalues name hname).mp (hvalue name hname)⟩
  · intro h
    obtain ⟨hkey, hvalue⟩ := h
    exact ⟨hkey, fun name hname => (hvalues name hname).mpr (hvalue name hname)⟩

end Alone

/-! ## Blocks -/

section Blocks

variable {primaryKey : List String} {base layer : RowBlock}

theorem rows_overlay_eq (hbase : base.WellFormed) (hlayer : layer.WellFormed) :
    (overlay primaryKey base layer).rows =
      layer.rows.foldl (land primaryKey layer (overlay primaryKey base layer).columns)
        (base.rows.map (pad (overlay primaryKey base layer).columns.length)) := by
  show layer.rows.foldl _ _ = _
  rw [positions_align, padded_of_wellFormed hbase]
  exact List.foldl_ext _ _ _ fun rows row hrow => landRow_eq_land (hlayer row hrow)

/-- What either block lacks of the key, no row of the base shows. -/
theorem Unkeyed.not_meets (h : Unkeyed primaryKey base layer) {columns : List String}
    (hcolumns : base.columns <+: columns) {row old : Row}
    (hrow : row.values.length = layer.columns.length)
    (hold : old.values.length = base.columns.length) (width : Nat) :
    ¬ meets primaryKey layer columns row (pad width old) := by
  intro hmeets
  obtain ⟨hkey, -, hvalue⟩ := meets_iff.mp hmeets
  rcases h with hnil | ⟨name, hname, hlacking⟩
  · exact hkey hnil
  · obtain ⟨hnull, hsame⟩ := hvalue name hname
    by_cases hlayer : Found layer.columns name
    · have hbase : ¬ Found base.columns name := fun hfound => hlacking ⟨hfound, hlayer⟩
      rw [value_pad, value_columnAt_of_not_found hold hbase hcolumns] at hsame
      exact hnull hsame.symm
    · exact hnull (value_columnAt_of_not_found hrow hlayer (List.prefix_refl _))

/-- The rows of the base stay as they are, and those of the layer land behind them as if there
were none before. -/
theorem rows_overlay_of_unkeyed (hbase : base.WellFormed) (hlayer : layer.WellFormed)
    (h : Unkeyed primaryKey base layer) :
    (overlay primaryKey base layer).rows =
      base.rows.map (pad (overlay primaryKey base layer).columns.length) ++
        layer.rows.foldl (land primaryKey layer (overlay primaryKey base layer).columns) [] := by
  rw [rows_overlay_eq hbase hlayer, ← foldl_land_append, List.append_nil]
  intro row hrow existing hexisting
  obtain ⟨old, hold, rfl⟩ := List.mem_map.mp hexisting
  exact h.not_meets (columns_prefix_align base.columns layer.columns) (hlayer row hrow)
    (hbase old hold) _

theorem pairwise_meets_iff (hlayer : layer.WellFormed) :
    (layer.rows.Pairwise fun earlier later =>
      ¬ meets primaryKey layer (overlay primaryKey base layer).columns later
        (alone layer (overlay primaryKey base layer).columns earlier)) ↔
    layer.rows.Pairwise fun earlier later => ¬ Clash primaryKey layer earlier later := by
  have hfound : ∀ column ∈ layer.columns, Found (overlay primaryKey base layer).columns column :=
    fun column hcolumn => found_align base.columns hcolumn
  refine List.Pairwise.iff_of_mem fun _ hlater => not_congr ?_
  exact meets_alone_iff hfound (hlayer _ hlater)

/-- All rows of the layer are appended if no two of them clash. -/
theorem appended_of_apart (hbase : base.WellFormed) (hlayer : layer.WellFormed)
    (h : Unkeyed primaryKey base layer)
    (hapart : layer.rows.Pairwise fun earlier later => ¬ Clash primaryKey layer earlier later) :
    Appended primaryKey base layer := by
  have hrows := rows_overlay_of_unkeyed hbase hlayer h
  rw [foldl_land_of_apart (fun _ _ _ hnil => absurd hnil List.not_mem_nil)
    ((pairwise_meets_iff hlayer).mpr hapart), List.nil_append] at hrows
  constructor
  · rw [hrows, List.length_append, List.length_map, List.length_map]
  · rw [hrows, List.take_left' (List.length_map _)]
  · intro i row hrow
    refine ⟨_, ?_, shows_alone layer _ row⟩
    rw [hrows, List.getElem?_append_right (by rw [List.length_map]; omega), List.length_map,
      Nat.add_sub_cancel_left, List.getElem?_map, hrow, Option.map_some]

/-- If all rows of the layer are appended, no two of them clash. -/
theorem Appended.apart (hbase : base.WellFormed) (hlayer : layer.WellFormed)
    (h : Unkeyed primaryKey base layer) (happended : Appended primaryKey base layer) :
    layer.rows.Pairwise fun earlier later => ¬ Clash primaryKey layer earlier later := by
  have hcount := happended.count
  rw [rows_overlay_of_unkeyed hbase hlayer h, List.length_append, List.length_map,
    Nat.add_left_cancel_iff, ← Nat.zero_add layer.rows.length] at hcount
  exact (pairwise_meets_iff hlayer).mp (apart_of_length_foldl_land hcount).2

/-- **Rows without a key to go by.** The rows of the base stay what they are, with NULL in the
columns that are added. Behind them is what the layer comes to over a base without rows. That is
one row for each row of the layer exactly if no two of these clash; and none do if there is no
primary key, or the layer lacks a column of it. -/
theorem overlay_unkeyed (hbase : base.WellFormed) (hlayer : layer.WellFormed)
    (h : Unkeyed primaryKey base layer) :
    (overlay primaryKey base layer).rows =
        base.rows.map (pad (overlay primaryKey base layer).columns.length) ++
          (overlay primaryKey { base with rows := [] } layer).rows ∧
      (Appended primaryKey base layer ↔
        layer.rows.Pairwise fun earlier later => ¬ Clash primaryKey layer earlier later) ∧
      (primaryKey = [] ∨ (∃ name ∈ primaryKey, ¬ Found layer.columns name) →
        Appended primaryKey base layer) := by
  refine ⟨?_, ⟨Appended.apart hbase hlayer h, appended_of_apart hbase hlayer h⟩, fun hnone => ?_⟩
  · have hempty : ({ base with rows := [] } : RowBlock).WellFormed :=
      fun row hrow => absurd hrow List.not_mem_nil
    rw [rows_overlay_of_unkeyed hbase hlayer h, rows_overlay_eq hempty hlayer]
    rfl
  · refine appended_of_apart hbase hlayer h (List.pairwise_of_forall_mem_list ?_)
    intro earlier _ later hlater hclash
    rcases hnone with hnil | ⟨name, hname, hlacking⟩
    · exact hclash.key_ne_nil hnil
    · exact (hclash.value name hname).1
        (value_columnAt_of_not_found (hlayer later hlater) hlacking (List.prefix_refl _))

end Blocks

/-- A state without a number. -/
def unnumbered : RowBlock where
  columns := ["label"]
  rows := [.ofValues ["draft"]]

/-- Two states under numbers of their own. -/
def openings : RowBlock where
  columns := ["id", "label"]
  rows := [.ofValues ["1", "open"], .ofValues ["2", "closed"]]

/-- Two states under one number. -/
def reopenings : RowBlock where
  columns := ["id", "label"]
  rows := [.ofValues ["1", "open"], .ofValues ["1", "closed"]]

theorem overlay_unkeyed_openings :
    unnumbered.WellFormed ∧ openings.WellFormed ∧ Unkeyed ["id"] unnumbered openings ∧
      Appended ["id"] unnumbered openings ∧ Appended [] unnumbered reopenings := by
  have hbase : unnumbered.WellFormed := by simp [WellFormed, unnumbered, Row.ofValues]
  have hlayer : openings.WellFormed := by simp [WellFormed, openings, Row.ofValues]
  have hagain : reopenings.WellFormed := by simp [WellFormed, reopenings, Row.ofValues]
  have h : Unkeyed ["id"] unnumbered openings := .inr ⟨"id", by simp, by decide +kernel⟩
  refine ⟨hbase, hlayer, h, ?_, ?_⟩
  · obtain ⟨-, happended, -⟩ := overlay_unkeyed hbase hlayer h
    refine happended.mpr (List.pairwise_pair.mpr fun hclash => ?_)
    exact absurd (hclash.value "id" (by simp)).2 (by decide +kernel)
  · obtain ⟨-, -, happended⟩ := overlay_unkeyed hbase hagain (.inl rfl)
    exact happended (.inl rfl)

/-- The base lacks the column of the key, and yet the second row of the layer is written over
the first. -/
theorem not_appended_reopenings :
    unnumbered.WellFormed ∧ reopenings.WellFormed ∧ Unkeyed ["id"] unnumbered reopenings ∧
      (overlay ["id"] unnumbered reopenings).rows =
        [{ values := [some "draft", none] }, .ofValues ["closed", "1"]] ∧
      ¬ Appended ["id"] unnumbered reopenings := by
  have hrows : (overlay ["id"] unnumbered reopenings).rows =
      [{ values := [some "draft", none] }, .ofValues ["closed", "1"]] := by decide +kernel
  refine ⟨by simp [WellFormed, unnumbered, Row.ofValues],
    by simp [WellFormed, reopenings, Row.ofValues], .inr ⟨"id", by simp, by decide +kernel⟩,
    hrows, fun happended => ?_⟩
  have hthree := happended.count
  rw [hrows] at hthree
  exact absurd hthree (by decide)

end LayeredSchema.RowBlock
