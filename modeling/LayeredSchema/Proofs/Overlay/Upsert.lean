import LayeredSchema.Proofs.Overlay.KeyByKey

/-!
# Row blocks are upserted by primary key

A block laid over another one writes each of its rows over the first row of the base with the
same key, and adds one row for each key that the base does not have and for each row without
a key. `Upserted` says what that comes to for the block as a whole, in terms of the two blocks
alone, and `overlay_upserts` that it is so whenever both blocks have the primary key
(`HasKey`). Two rows may have one key, in the base as in the layer: it is then the first row
of the base that shows the last row of the layer.
-/

namespace LayeredSchema.RowBlock

/-- The keys of a block that have no NULL in them, row by row. -/
def wholeKeys (primaryKey : List String) (block : RowBlock) : List (List (Option String)) :=
  (block.rows.map (block.keyOf primaryKey)).filter fun key => !key.contains none

/-- What a block comes to when the rows of another one are upserted by the primary key. -/
structure Upserted (primaryKey : List String) (base layer result : RowBlock) : Prop where
  columns : result.columns =
    base.columns ++ layer.columns.filter fun column => ¬ Found base.columns column
  wellFormed : result.WellFormed
  /-- The first row of the base with a key that the layer has too shows the last row of the
  layer with that key. -/
  chosen : ∀ key i old row, none ∉ key →
    (base.rows.map (base.keyOf primaryKey)).idxOf? key = some i → base.rows[i]? = some old →
    (layer.rows.filter fun row => layer.keyOf primaryKey row = key).getLast? = some row →
    ∃ new, result.rows[i]? = some new ∧ Written layer result.columns row old new
  /-- Every other row of the base keeps its values, with NULL in the columns that are added. -/
  kept : ∀ i old, base.rows[i]? = some old →
    (none ∈ base.keyOf primaryKey old ∨
      base.keyOf primaryKey old ∉ layer.rows.map (layer.keyOf primaryKey) ∨
      (base.rows.map (base.keyOf primaryKey)).idxOf? (base.keyOf primaryKey old) ≠ some i) →
    result.rows[i]? = some (pad result.columns.length old)
  /-- One row is added for a key that the base does not have, and it shows the last row of the
  layer with that key. -/
  added : ∀ key row, none ∉ key → key ∉ base.rows.map (base.keyOf primaryKey) →
    (layer.rows.filter fun row => layer.keyOf primaryKey row = key).getLast? = some row →
    ∃ new, ((result.rows.drop base.rows.length).filter
        fun new => result.keyOf primaryKey new = key) = [new] ∧
      Written layer result.columns row ⟨[], false⟩ new
  /-- One row is added for each row of the layer with NULL in its key. -/
  keyless : List.Forall₂ (fun row new => Written layer result.columns row ⟨[], false⟩ new)
    (layer.rows.filter fun row => none ∈ layer.keyOf primaryKey row)
    ((result.rows.drop base.rows.length).filter
      fun new => none ∈ result.keyOf primaryKey new)
  /-- No other row is added. -/
  noOther : ∀ new ∈ result.rows.drop base.rows.length, none ∈ result.keyOf primaryKey new ∨
    result.keyOf primaryKey new ∈ layer.rows.map (layer.keyOf primaryKey) ∧
      result.keyOf primaryKey new ∉ base.rows.map (base.keyOf primaryKey)
  distinct : (base.wholeKeys primaryKey).Nodup → (result.wholeKeys primaryKey).Nodup

section Blocks

variable {primaryKey : List String} {base layer : RowBlock}

/-- Padding leaves the key of a row what it is. -/
theorem HasKey.keyAt_pad (h : base.HasKey primaryKey) {columns : List String}
    (hcolumns : base.columns <+: columns) (width : Nat) (row : Row) :
    keyAt primaryKey columns (pad width row) = base.keyOf primaryKey row := by
  refine List.map_congr_left fun name hname => ?_
  rw [value_pad, Found.columnAt_of_prefix (h.found name hname) hcolumns]

theorem padded_of_wellFormed (h : base.WellFormed) (width : Nat) :
    base.padded width = base.rows.map (pad width) :=
  List.map_congr_left fun row hrow => if_pos (h row hrow)

variable (hbase : base.HasKey primaryKey) (hlayer : layer.HasKey primaryKey)

include hbase hlayer

/-- All that the landing of a layer starts from. -/
theorem landing_spec :
    let columns := (overlay primaryKey base layer).columns
    let rows := base.rows.map (pad columns.length)
    (overlay primaryKey base layer).rows =
        layer.rows.foldl (landKeyed primaryKey layer columns) rows ∧
      columns.Pairwise (fun a b => Name.fold a ≠ Name.fold b) ∧
      (∀ column ∈ layer.columns, Found columns column) ∧ Wide columns rows ∧
      rows.map (keyAt primaryKey columns) = base.rows.map (base.keyOf primaryKey) := by
  refine ⟨?_, pairwise_align hbase.columns hlayer.columns,
    fun column hcolumn => found_align base.columns hcolumn, ?_, ?_⟩
  · rw [hlayer.rows_overlay, padded_of_wellFormed hbase.wellFormed]
    rfl
  · intro row hrow
    obtain ⟨old, hold, rfl⟩ := List.mem_map.mp hrow
    refine length_pad ?_
    rw [hbase.wellFormed old hold]
    exact length_align base.columns layer.columns
  · rw [List.map_map]
    refine List.map_congr_left fun row _ => ?_
    exact hbase.keyAt_pad (columns_prefix_align base.columns layer.columns) _ row

/-- A row of the base in the result. -/
theorem getElem?_rows_overlay {i : Nat} {old : Row} (hold : base.rows[i]? = some old) :
    (overlay primaryKey base layer).rows[i]? =
      some ((layer.rows.filter fun row => none ∉ layer.keyOf primaryKey row ∧
        (base.rows.map (base.keyOf primaryKey)).idxOf? (layer.keyOf primaryKey row) =
          some i).foldl
        (fun existing row => fill layer (overlay primaryKey base layer).columns row existing)
        (pad (overlay primaryKey base layer).columns.length old)) := by
  obtain ⟨hrows, -, hfound, hwide, hkeys⟩ := landing_spec hbase hlayer
  have hpad : (base.rows.map (pad (overlay primaryKey base layer).columns.length))[i]? =
      some (pad (overlay primaryKey base layer).columns.length old) := by
    rw [List.getElem?_map, hold, Option.map_some]
  rw [hrows, hlayer.getElem?_foldl_landKeyed hfound hlayer.wellFormed hwide hpad, hkeys]

/-- The rows of the result that the base does not have. -/
theorem drop_rows_overlay :
    (overlay primaryKey base layer).rows.drop base.rows.length =
      (layer.rows.filter fun row => ¬ (none ∉ layer.keyOf primaryKey row ∧
        layer.keyOf primaryKey row ∈ base.rows.map (base.keyOf primaryKey))).foldl
        (landKeyed primaryKey layer (overlay primaryKey base layer).columns) [] := by
  obtain ⟨hrows, -, hfound, hwide, hkeys⟩ := landing_spec hbase hlayer
  have hdrop := hlayer.drop_foldl_landKeyed hfound hlayer.wellFormed hwide
  simp only [Held, hkeys, List.length_map] at hdrop
  rw [hrows, hdrop]

/-- The added rows with some of the keys, where a key without NULL is not one of the base. -/
theorem filter_drop_rows_overlay (Q : List (Option String) → Bool)
    (hQ : ∀ key, Q key → none ∈ key ∨ key ∉ base.rows.map (base.keyOf primaryKey)) :
    ((overlay primaryKey base layer).rows.drop base.rows.length).filter
        (fun new => Q ((overlay primaryKey base layer).keyOf primaryKey new)) =
      (layer.rows.filter fun row => Q (layer.keyOf primaryKey row)).foldl
        (landKeyed primaryKey layer (overlay primaryKey base layer).columns) [] := by
  obtain ⟨-, -, hfound, -, -⟩ := landing_spec hbase hlayer
  rw [drop_rows_overlay hbase hlayer]
  refine (hlayer.filter_foldl_landKeyed hfound
    (fun row hrow => hlayer.wellFormed row (List.mem_of_mem_filter hrow)) Q
    (fun row hrow => absurd hrow List.not_mem_nil)).trans ?_
  rw [List.filter_filter, List.filter_nil]
  congr 1
  refine List.filter_congr fun row _ => ?_
  by_cases hrow : Q (layer.keyOf primaryKey row)
  · rcases hQ _ hrow with hnull | hnew
    · simp [hrow, hnull]
    · simp [hrow, hnew]
  · simp [hrow]

/-- The first row of the base with a key of the layer shows the last row with that key. -/
theorem chosen_overlay {key : List (Option String)} {i : Nat} {old row : Row}
    (hnull : none ∉ key)
    (hfirst : (base.rows.map (base.keyOf primaryKey)).idxOf? key = some i)
    (hold : base.rows[i]? = some old)
    (hlast : (layer.rows.filter fun row => layer.keyOf primaryKey row = key).getLast? =
      some row) :
    ∃ new, (overlay primaryKey base layer).rows[i]? = some new ∧
      Written layer (overlay primaryKey base layer).columns row old new := by
  obtain ⟨-, hcolumns, hfound, hwide, -⟩ := landing_spec hbase hlayer
  have hlands : (layer.rows.filter fun row => none ∉ layer.keyOf primaryKey row ∧
      (base.rows.map (base.keyOf primaryKey)).idxOf? (layer.keyOf primaryKey row) = some i) =
        layer.rows.filter fun row => layer.keyOf primaryKey row = key := by
    refine List.filter_congr fun row _ => decide_eq_decide.mpr ?_
    constructor
    · intro h
      obtain ⟨-, hi⟩ := h
      obtain ⟨hlt, hrow, -⟩ := List.idxOf?_eq_some_iff.mp hi
      obtain ⟨hlt', hkey, -⟩ := List.idxOf?_eq_some_iff.mp hfirst
      exact hrow.symm.trans hkey
    · intro h
      rw [h]
      exact ⟨hnull, hfirst⟩
  refine ⟨_, getElem?_rows_overlay hbase hlayer hold, ?_⟩
  rw [hlands]
  refine Written.of_value (value_pad _ old) (hlayer.written_foldl_fill hcolumns hfound
    (fun row hrow => hlayer.wellFormed row (List.mem_of_mem_filter hrow)) ?_ hlast)
  exact hwide _ (List.mem_map_of_mem (List.mem_of_getElem? hold))

/-- A row of the base that nothing of the layer is written over. -/
theorem kept_overlay {i : Nat} {old : Row} (hold : base.rows[i]? = some old)
    (h : none ∈ base.keyOf primaryKey old ∨
      base.keyOf primaryKey old ∉ layer.rows.map (layer.keyOf primaryKey) ∨
      (base.rows.map (base.keyOf primaryKey)).idxOf? (base.keyOf primaryKey old) ≠ some i) :
    (overlay primaryKey base layer).rows[i]? =
      some (pad (overlay primaryKey base layer).columns.length old) := by
  have hlands : (layer.rows.filter fun row => none ∉ layer.keyOf primaryKey row ∧
      (base.rows.map (base.keyOf primaryKey)).idxOf? (layer.keyOf primaryKey row) = some i) =
        [] := by
    rw [List.filter_eq_nil_iff]
    intro row hrow hland
    obtain ⟨hnull, hfirst⟩ := of_decide_eq_true hland
    obtain ⟨hlt, hkey, -⟩ := List.idxOf?_eq_some_iff.mp hfirst
    obtain ⟨hi, rfl⟩ := List.getElem?_eq_some_iff.mp hold
    rw [List.getElem_map] at hkey
    rcases h with h | h | h
    · exact hnull (hkey ▸ h)
    · exact h (hkey ▸ List.mem_map_of_mem hrow)
    · exact h (hkey ▸ hfirst)
  rw [getElem?_rows_overlay hbase hlayer hold, hlands, List.foldl_nil]

/-- One row is added for a key of the layer that the base does not have. -/
theorem added_overlay {key : List (Option String)} {row : Row} (hnull : none ∉ key)
    (hnew : key ∉ base.rows.map (base.keyOf primaryKey))
    (hlast : (layer.rows.filter fun row => layer.keyOf primaryKey row = key).getLast? =
      some row) :
    ∃ new, (((overlay primaryKey base layer).rows.drop base.rows.length).filter fun new =>
        (overlay primaryKey base layer).keyOf primaryKey new = key) = [new] ∧
      Written layer (overlay primaryKey base layer).columns row ⟨[], false⟩ new := by
  obtain ⟨-, hcolumns, hfound, -, -⟩ := landing_spec hbase hlayer
  have hwellFormed : Wide layer.columns
      (layer.rows.filter fun row => layer.keyOf primaryKey row = key) :=
    fun row hrow => hlayer.wellFormed row (List.mem_of_mem_filter hrow)
  have hadded := filter_drop_rows_overlay hbase hlayer (fun other => other = key)
    fun other hother => .inr (of_decide_eq_true hother ▸ hnew)
  refine ⟨_, hadded.trans (hlayer.foldl_landKeyed_nil hfound hwellFormed hnull
    (fun row hrow => of_decide_eq_true (List.mem_filter.mp hrow).2) ?_), ?_⟩
  · intro hnil
    rw [hnil] at hlast
    exact absurd hlast (by simp)
  · exact Written.of_value (value_pad _ _) (hlayer.written_foldl_fill hcolumns hfound hwellFormed
      (length_pad (Nat.zero_le _)) hlast)

/-- One row is added for each row of the layer with NULL in its key. -/
theorem keyless_overlay :
    List.Forall₂ (fun row new =>
        Written layer (overlay primaryKey base layer).columns row ⟨[], false⟩ new)
      (layer.rows.filter fun row => none ∈ layer.keyOf primaryKey row)
      (((overlay primaryKey base layer).rows.drop base.rows.length).filter fun new =>
        none ∈ (overlay primaryKey base layer).keyOf primaryKey new) := by
  obtain ⟨-, hcolumns, hfound, -, -⟩ := landing_spec hbase hlayer
  have hadded := filter_drop_rows_overlay hbase hlayer (fun key => none ∈ key)
    fun key hkey => .inl (of_decide_eq_true hkey)
  rw [hadded, foldl_landKeyed_null fun row hrow => of_decide_eq_true (List.mem_filter.mp hrow).2,
    List.nil_append, List.forall₂_map_right_iff, List.forall₂_same]
  intro row hrow
  exact Written.of_value (value_pad _ _) (hlayer.written_fill hcolumns hfound
    (hlayer.wellFormed row (List.mem_of_mem_filter hrow)) (length_pad (Nat.zero_le _)))

/-- The key of a row that is added has NULL in it, or is one of the layer and not of the
base. -/
theorem key_of_added_overlay {new : Row}
    (hnew : new ∈ (overlay primaryKey base layer).rows.drop base.rows.length) :
    none ∈ (overlay primaryKey base layer).keyOf primaryKey new ∨
      (overlay primaryKey base layer).keyOf primaryKey new ∈
          layer.rows.map (layer.keyOf primaryKey) ∧
        (overlay primaryKey base layer).keyOf primaryKey new ∉
          base.rows.map (base.keyOf primaryKey) := by
  obtain ⟨-, -, hfound, -, -⟩ := landing_spec hbase hlayer
  refine or_iff_not_imp_left.mpr fun hnull => ?_
  rw [drop_rows_overlay hbase hlayer] at hnew
  rcases hlayer.keyAt_of_mem_foldl_landKeyed hfound
    (fun row hrow => hlayer.wellFormed row (List.mem_of_mem_filter hrow))
    (fun row hrow => absurd hrow List.not_mem_nil) hnew with hnone | hkey
  · exact absurd hnone List.not_mem_nil
  · obtain ⟨row, hrow, hkey⟩ := List.mem_map.mp hkey
    obtain ⟨hrow, hlands⟩ := List.mem_filter.mp hrow
    rw [hkey] at hlands
    exact ⟨List.mem_map.mpr ⟨row, hrow, hkey⟩,
      fun hmem => of_decide_eq_true hlands ⟨hnull, hmem⟩⟩

/-- Keys without NULL stay distinct. -/
theorem nodup_wholeKeys_overlay (h : (base.wholeKeys primaryKey).Nodup) :
    ((overlay primaryKey base layer).wholeKeys primaryKey).Nodup := by
  obtain ⟨hrows, -, hfound, hwide, hkeys⟩ := landing_spec hbase hlayer
  have hpart := hlayer.filter_foldl_landKeyed hfound hlayer.wellFormed
    (fun key => !key.contains none) hwide
  unfold wholeKeys at h ⊢
  rw [← hkeys, List.filter_map] at h
  rw [List.filter_map, hrows]
  refine hpart ▸ hlayer.nodup_foldl_landKeyed hfound
    (fun row hrow => hlayer.wellFormed row (List.mem_of_mem_filter hrow))
    (fun row hrow => by simpa using (List.mem_filter.mp hrow).2)
    (fun row hrow => hwide row (List.mem_of_mem_filter hrow)) h

/-- **Row blocks are upserted by primary key.** -/
theorem overlay_upserts : Upserted primaryKey base layer (overlay primaryKey base layer) where
  columns := columns_align base.columns hlayer.columns
  wellFormed := hbase.wellFormed.overlay hlayer.wellFormed primaryKey
  chosen _ _ _ _ := chosen_overlay hbase hlayer
  kept _ _ := kept_overlay hbase hlayer
  added _ _ := added_overlay hbase hlayer
  keyless := keyless_overlay hbase hlayer
  noOther _ := key_of_added_overlay hbase hlayer
  distinct := nodup_wholeKeys_overlay hbase hlayer

end Blocks

/-- Two rates under one code and one without a code. -/
def rates : RowBlock where
  columns := ["code", "rate"]
  rows := [.ofValues ["A", "10"], .ofValues ["A", "20"], { values := [none, some "30"] }]

/-- Notes on rates: two under one code, one under a new one and one without a code. -/
def notes : RowBlock where
  columns := ["note", "CODE"]
  rows := [.ofValues ["old", "A"], .ofValues ["new", "B"],
    { values := [some "gone", some "A"], deleted := true }, { values := [some "stray", none] }]

/-- The first rate shows the last note on its code, and the new code has a row of its own. -/
theorem overlay_upserts_rates :
    rates.HasKey ["code"] ∧ notes.HasKey ["code"] ∧
      (∃ new, (overlay ["code"] rates notes).rows[0]? = some new ∧
        Written notes (overlay ["code"] rates notes).columns
          { values := [some "gone", some "A"], deleted := true } (.ofValues ["A", "10"]) new) ∧
      ∃ new, (((overlay ["code"] rates notes).rows.drop 3).filter fun new =>
          (overlay ["code"] rates notes).keyOf ["code"] new = [some "B"]) = [new] ∧
        Written notes (overlay ["code"] rates notes).columns (.ofValues ["new", "B"])
          ⟨[], false⟩ new := by
  have hrates : rates.HasKey ["code"] := by decide +kernel
  have hnotes : notes.HasKey ["code"] := by decide +kernel
  have hupserted := overlay_upserts hrates hnotes
  refine ⟨hrates, hnotes, ?_, ?_⟩
  · exact hupserted.chosen [some "A"] 0 _ _ (by simp) (by decide +kernel) rfl
      (by decide +kernel)
  · exact hupserted.added [some "B"] _ (by simp) (by decide +kernel) (by decide +kernel)

example : (overlay ["code"] rates notes).rows =
    [{ values := [some "A", some "10", some "gone"], deleted := true },
      { values := [some "A", some "20", none] }, { values := [none, some "30", none] },
      { values := [some "B", none, some "new"] }, { values := [none, none, some "stray"] }] := by
  decide +kernel

end LayeredSchema.RowBlock
