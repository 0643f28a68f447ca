import LayeredSchema.Overlay.Definition
import LayeredSchema.Proofs.Siblings

/-!
# Layers over row blocks keep rows well-formed

A block is `WellFormed` when every row has one value for each column. Laying a
block over another one only ever grows the columns (`length_align`), pads the
rows of the base to the new width (`length_pad`) and writes into rows without
changing their length (`length_write`). So once all rows have the new width,
every row that lands leaves it so (`forall_landRow`), and the result is
well-formed (`WellFormed.overlay`).
-/

namespace LayeredSchema.RowBlock

/-- Every row has one value for each column. -/
def WellFormed (block : RowBlock) : Prop :=
  ∀ row ∈ block.rows, row.values.length = block.columns.length

/-! ## Widths -/

/-- Columns are added and never lost. -/
theorem length_align (columns layer : List String) :
    columns.length ≤ (align columns layer).columns.length := by
  induction layer generalizing columns with
  | nil => exact Nat.le_refl _
  | cons column rest ih =>
    unfold align
    split
    next => exact ih columns
    next =>
      have hgrown := ih (columns ++ [column])
      rw [List.length_append] at hgrown
      exact Nat.le_of_add_right_le hgrown

theorem length_pad {width : Nat} {row : Row} (h : row.values.length ≤ width) :
    (pad width row).values.length = width := by
  rw [pad, List.length_append, List.length_replicate]
  omega

theorem value_pad (width : Nat) (row : Row) (i : Nat) : (pad width row).value i = row.value i := by
  simp only [Row.value, pad, List.getElem?_append, List.getElem?_replicate]
  split
  next => rfl
  next h =>
    rw [List.getElem?_eq_none (Nat.le_of_not_lt h)]
    split <;> rfl

theorem length_write (positions : List Nat) (row existing : Row) :
    (write positions row existing).values.length = existing.values.length := by
  show ((positions.zip row.values).foldl (fun values p => values.set p.1 p.2)
    existing.values).length = existing.values.length
  -- any number of writes, whatever they write and where
  generalize existing.values = values
  induction positions.zip row.values generalizing values with
  | nil => rfl
  | cons p rest ih => rw [List.foldl_cons, ih, List.length_set]

/-! ## Rows that are upserted -/

section Upsert

variable {p q : Row → Bool} {f : Row → Row} {fresh : Row} {rows : List Row}

theorem upsert_nil : upsert p f fresh [] = [f fresh] := rfl

theorem upsert_cons {row : Row} :
    upsert p f fresh (row :: rows) =
      if p row then f row :: rows else row :: upsert p f fresh rows := by
  unfold upsert
  rw [Siblings.modifyFirst?]
  split
  next => rfl
  next => cases Siblings.modifyFirst? p f rows <;> rfl

theorem upsert_append (more : List Row) :
    upsert p f fresh (rows ++ more) =
      if rows.any p then upsert p f fresh rows ++ more else rows ++ upsert p f fresh more := by
  induction rows with
  | nil => rfl
  | cons row rows ih =>
    rw [List.cons_append, upsert_cons, upsert_cons, List.any_cons, ih]
    by_cases hrow : p row
    · simp [hrow]
    · by_cases hrows : rows.any p <;> simp [hrow, hrows]

theorem upsert_of_none (h : ∀ row ∈ rows, ¬ p row) :
    upsert p f fresh rows = rows ++ [f fresh] := by
  induction rows with
  | nil => rfl
  | cons row rows ih =>
    obtain ⟨hrow, hrows⟩ := List.forall_mem_cons.mp h
    rw [upsert_cons, if_neg hrow, ih hrows, List.cons_append]

theorem map_upsert {κ : Type} {key : Row → κ}
    (hkey : ∀ row ∈ rows, p row → key (f row) = key row) :
    (upsert p f fresh rows).map key =
      if rows.any p then rows.map key else rows.map key ++ [key (f fresh)] := by
  induction rows with
  | nil => rfl
  | cons row rows ih =>
    obtain ⟨hrow, hrows⟩ := List.forall_mem_cons.mp hkey
    rw [upsert_cons, List.any_cons]
    by_cases hp : p row
    · simp [hp, hrow hp]
    · by_cases hany : rows.any p <;> simp [hp, hany, ih hrows]

theorem length_upsert :
    (upsert p f fresh rows).length = if rows.any p then rows.length else rows.length + 1 := by
  rw [upsert, ← Siblings.modifyFirst?_isSome (f := f)]
  cases hmodified : Siblings.modifyFirst? p f rows with
  | none => simp
  | some edited => simpa using Siblings.length_modifyFirst? hmodified

theorem getElem?_upsert {i : Nat} {row : Row} (h : rows[i]? = some row) :
    (upsert p f fresh rows)[i]? =
      some (if rows.findIdx? p = some i then f row else row) := by
  induction rows generalizing i with
  | nil => exact absurd h (by simp)
  | cons first rows ih =>
    rw [upsert_cons, List.findIdx?_cons]
    cases i with
    | zero =>
      obtain rfl : first = row := by simpa using h
      by_cases hp : p first <;> simp [hp]
    | succ i =>
      rw [List.getElem?_cons_succ] at h
      by_cases hp : p first
      · simp [hp, h]
      · simp [hp, ih h]

/-- Landing among some of the rows, which what lands belongs to. -/
theorem filter_upsert (hp : ∀ row ∈ rows, p row → q row ∧ q (f row)) (hfresh : q (f fresh)) :
    (upsert p f fresh rows).filter q = upsert p f fresh (rows.filter q) := by
  induction rows with
  | nil => simp [upsert_nil, hfresh]
  | cons row rows ih =>
    obtain ⟨hrow, hrows⟩ := List.forall_mem_cons.mp hp
    rw [upsert_cons]
    by_cases hprow : p row
    · obtain ⟨hq, hqf⟩ := hrow hprow
      rw [if_pos hprow, List.filter_cons_of_pos hqf, List.filter_cons_of_pos hq, upsert_cons,
        if_pos hprow]
    · rw [if_neg hprow]
      by_cases hq : q row
      · rw [List.filter_cons_of_pos hq, List.filter_cons_of_pos hq, upsert_cons, if_neg hprow,
          ih hrows]
      · rw [List.filter_cons_of_neg hq, List.filter_cons_of_neg hq, ih hrows]

/-- Landing besides some of the rows. -/
theorem filter_upsert_other (hp : ∀ row ∈ rows, p row → ¬ q row ∧ ¬ q (f row))
    (hfresh : ¬ q (f fresh)) : (upsert p f fresh rows).filter q = rows.filter q := by
  induction rows with
  | nil => simp [upsert_nil, hfresh]
  | cons row rows ih =>
    obtain ⟨hrow, hrows⟩ := List.forall_mem_cons.mp hp
    rw [upsert_cons]
    by_cases hprow : p row
    · obtain ⟨hq, hqf⟩ := hrow hprow
      rw [if_pos hprow, List.filter_cons_of_neg hq, List.filter_cons_of_neg hqf]
    · rw [if_neg hprow, List.filter_cons, List.filter_cons, ih hrows]

end Upsert

/-! ## Rows that land -/

theorem forall_upsert {P : Row → Prop} {p : Row → Bool} {f : Row → Row} {fresh : Row}
    {rows : List Row} (hrows : ∀ row ∈ rows, P row) (hf : ∀ row, P row → P (f row))
    (hfresh : P fresh) : ∀ row ∈ upsert p f fresh rows, P row := by
  unfold upsert
  cases hmodified : Siblings.modifyFirst? p f rows with
  | none =>
    rw [Option.getD_none, List.forall_mem_append]
    exact ⟨hrows, List.forall_mem_singleton.mpr (hf fresh hfresh)⟩
  | some edited =>
    obtain ⟨before, row, after, rfl, -, -, rfl⟩ := Siblings.modifyFirst?_eq_some hmodified
    rw [List.forall_mem_append, List.forall_mem_cons] at hrows
    rw [Option.getD_some, List.forall_mem_append, List.forall_mem_cons]
    exact ⟨hrows.1, hf row hrows.2.1, hrows.2.2⟩

/-- A well-formed row leaves all rows as wide as they were. -/
theorem forall_landRow {layerWidth width : Nat} {positions : List Nat}
    {keys : Option (List (Nat × Nat))} {rows : List Row} {row : Row}
    (hrows : ∀ existing ∈ rows, existing.values.length = width)
    (hrow : row.values.length = layerWidth) :
    ∀ existing ∈ landRow layerWidth width positions keys rows row,
      existing.values.length = width := by
  unfold landRow
  rw [if_pos hrow]
  refine forall_upsert hrows (fun existing h => ?_) (length_pad (Nat.zero_le width))
  rw [length_write, h]

theorem forall_foldl_landRow {layerWidth width : Nat} {positions : List Nat}
    {keys : Option (List (Nat × Nat))} {rows landing : List Row}
    (hrows : ∀ existing ∈ rows, existing.values.length = width)
    (hlanding : ∀ row ∈ landing, row.values.length = layerWidth) :
    ∀ existing ∈ landing.foldl (landRow layerWidth width positions keys) rows,
      existing.values.length = width := by
  induction landing generalizing rows with
  | nil => exact hrows
  | cons row landing ih =>
    obtain ⟨hrow, hrest⟩ := List.forall_mem_cons.mp hlanding
    exact ih (forall_landRow hrows hrow) hrest

/-! ## Blocks -/

/-- **Well-formed rows stay well-formed.** -/
theorem WellFormed.overlay {base layer : RowBlock} (hbase : base.WellFormed)
    (hlayer : layer.WellFormed) (primaryKey : List String) :
    (overlay primaryKey base layer).WellFormed := by
  refine forall_foldl_landRow (fun row hrow => ?_) hlayer
  obtain ⟨existing, hexisting, rfl⟩ := List.mem_map.mp hrow
  have hwidth := hbase existing hexisting
  rw [if_pos hwidth]
  refine length_pad ?_
  rw [hwidth]
  exact length_align base.columns layer.columns

theorem WellFormed.overlayOption {base layer : Option RowBlock}
    (hbase : ∀ block ∈ base, block.WellFormed) (hlayer : ∀ block ∈ layer, block.WellFormed)
    (primaryKey : List String) :
    ∀ block ∈ overlayOption primaryKey base layer, block.WellFormed := by
  cases base with
  | none => cases layer <;> exact hlayer
  | some b =>
    cases layer with
    | none => exact hbase
    | some l =>
      intro block hblock
      obtain rfl := Option.some.inj hblock
      exact (hbase b rfl).overlay (hlayer l rfl) primaryKey

end LayeredSchema.RowBlock
