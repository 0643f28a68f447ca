import LayeredSchema.Proofs.Overlay.Rows

/-!
# Malformed rows under a layer over rows

A malformed row has no place for its values, so it should be carried along and otherwise left
alone: the rows of the result that are not malformed rows of one of the two blocks should be
those that the blocks come to without them. To say so the rows of a result are marked
(`MarkedRow`), as a malformed row may look like any other by then.

`landMarked` lets a layer land as it should, with marked rows passed over. What it comes to is
inert for all blocks. What `overlay` comes to is the same as long as no row of the layer finds
its key in a malformed row (`malformedInert`). A row is found by its length and its values
alone, however. So a malformed row that happens to have the width of the result is found, and
written over (`not_malformedInert_drafts`).
-/

namespace LayeredSchema.RowBlock

/-! ## Malformed rows -/

/-- The rows that do not have one value for each column. -/
def malformed (block : RowBlock) : List Row :=
  block.rows.filter fun row => row.values.length ≠ block.columns.length

/-- The block without its malformed rows. -/
def sound (block : RowBlock) : RowBlock :=
  { block with rows := block.rows.filter fun row => row.values.length = block.columns.length }

/-- A row of a result, and whether it is a malformed row of one of the blocks. -/
structure MarkedRow where
  row : Row
  malformed : Bool

/-- The rows that bear no mark. -/
def unmarked (rows : List MarkedRow) : List Row :=
  (rows.filter fun r => !r.malformed).map MarkedRow.row

/-- The rows that bear a mark. -/
def marked (rows : List MarkedRow) : List Row :=
  (rows.filter MarkedRow.malformed).map MarkedRow.row

/-- Malformed rows are inert: those of the base stay where they are, as they are; those of the
layer are added as they are; and the other rows are what the blocks come to without them. -/
def MalformedInert (primaryKey : List String) (base layer : RowBlock) : Prop :=
  ∃ rows : List MarkedRow, rows.map MarkedRow.row = (overlay primaryKey base layer).rows ∧
    (∀ (i : Nat) (old : Row), base.rows[i]? = some old → ∃ new : MarkedRow, rows[i]? = some new ∧
      (new.malformed ↔ old.values.length ≠ base.columns.length) ∧
      (new.malformed → new.row = old)) ∧
    marked (rows.drop base.rows.length) = layer.malformed ∧
    unmarked rows = (overlay primaryKey base.sound layer.sound).rows

/-! ## Landing as it should be -/

/-- The first unmarked row that satisfies `p` is replaced by `f` of it; if there is none, `f` of
a fresh row is added. -/
def upsertMarked (p : Row → Bool) (f : Row → Row) (fresh : Row) : List MarkedRow → List MarkedRow
  | [] => [⟨f fresh, false⟩]
  | r :: rest =>
    if !r.malformed && p r.row then ⟨f r.row, false⟩ :: rest
    else r :: upsertMarked p f fresh rest

section Marks

variable {rows : List MarkedRow} {r : MarkedRow}

theorem unmarked_cons_of_malformed (h : r.malformed = true) :
    unmarked (r :: rows) = unmarked rows := by
  rw [unmarked, List.filter_cons_of_neg (by simp [h])]
  rfl

theorem unmarked_cons_of_sound (h : r.malformed = false) :
    unmarked (r :: rows) = r.row :: unmarked rows := by
  rw [unmarked, List.filter_cons_of_pos (by simp [h]), List.map_cons]
  rfl

theorem marked_cons_of_malformed (h : r.malformed = true) :
    marked (r :: rows) = r.row :: marked rows := by
  rw [marked, List.filter_cons_of_pos h, List.map_cons]
  rfl

theorem marked_cons_of_sound (h : r.malformed = false) : marked (r :: rows) = marked rows := by
  rw [marked, List.filter_cons_of_neg (by simp [h])]
  rfl

theorem unmarked_nil : unmarked [] = [] := rfl

theorem marked_nil : marked [] = [] := rfl

theorem unmarked_append (rows more : List MarkedRow) :
    unmarked (rows ++ more) = unmarked rows ++ unmarked more := by
  rw [unmarked, List.filter_append, List.map_append]
  rfl

theorem marked_append (rows more : List MarkedRow) :
    marked (rows ++ more) = marked rows ++ marked more := by
  rw [marked, List.filter_append, List.map_append]
  rfl

end Marks

section Upsert

variable {p : Row → Bool} {f : Row → Row} {fresh : Row} {rows : List MarkedRow}

/-- Unmarked rows are upserted as if there were no others. -/
theorem unmarked_upsertMarked :
    unmarked (upsertMarked p f fresh rows) = upsert p f fresh (unmarked rows) := by
  induction rows with
  | nil => rfl
  | cons r rest ih =>
    rw [upsertMarked]
    cases hr : r.malformed with
    | true =>
      rw [if_neg (by simp), unmarked_cons_of_malformed hr, unmarked_cons_of_malformed hr, ih]
    | false =>
      rw [unmarked_cons_of_sound hr, upsert_cons]
      by_cases hp : p r.row
      · rw [if_pos (by simpa using hp), if_pos hp, unmarked_cons_of_sound rfl]
      · rw [if_neg (by simpa using hp), if_neg hp, unmarked_cons_of_sound hr, ih]

/-- Marked rows are left alone, also those behind a given position. -/
theorem marked_drop_upsertMarked (n : Nat) :
    marked ((upsertMarked p f fresh rows).drop n) = marked (rows.drop n) := by
  induction rows generalizing n with
  | nil =>
    cases n with
    | zero => exact marked_cons_of_sound rfl
    | succ n => rw [upsertMarked, List.drop_succ_cons, List.drop_nil, List.drop_nil]
  | cons r rest ih =>
    rw [upsertMarked]
    split
    next h =>
      have hr : r.malformed = false := by
        rw [Bool.and_eq_true, Bool.not_eq_true'] at h
        exact h.1
      cases n with
      | zero =>
        rw [List.drop_zero, List.drop_zero, marked_cons_of_sound hr, marked_cons_of_sound rfl]
      | succ n => rfl
    next =>
      cases n with
      | zero =>
        have hrest := ih 0
        rw [List.drop_zero, List.drop_zero] at hrest ⊢
        cases hr : r.malformed with
        | true => rw [marked_cons_of_malformed hr, marked_cons_of_malformed hr, hrest]
        | false => rw [marked_cons_of_sound hr, marked_cons_of_sound hr, hrest]
      | succ n => exact ih n

theorem marked_upsertMarked : marked (upsertMarked p f fresh rows) = marked rows :=
  marked_drop_upsertMarked 0

theorem length_le_upsertMarked : rows.length ≤ (upsertMarked p f fresh rows).length := by
  induction rows with
  | nil => exact Nat.zero_le _
  | cons r rest ih =>
    rw [upsertMarked]
    split
    next => exact Nat.le_refl _
    next => exact Nat.succ_le_succ ih

/-- A row keeps its mark, and a marked row keeps all it has. -/
theorem getElem?_upsertMarked {i : Nat} {r : MarkedRow} (h : rows[i]? = some r) :
    ∃ new, (upsertMarked p f fresh rows)[i]? = some new ∧ new.malformed = r.malformed ∧
      (r.malformed → new = r) := by
  induction rows generalizing i with
  | nil => exact absurd h (by simp)
  | cons first rest ih =>
    rw [upsertMarked]
    cases i with
    | zero =>
      obtain rfl : first = r := by simpa using h
      split
      next hp =>
        have hr : first.malformed = false := by
          rw [Bool.and_eq_true, Bool.not_eq_true'] at hp
          exact hp.1
        exact ⟨_, rfl, hr.symm, fun hmarked => absurd (hr.symm.trans hmarked) (by simp)⟩
      next => exact ⟨first, rfl, rfl, fun _ => rfl⟩
    | succ i =>
      rw [List.getElem?_cons_succ] at h
      split
      next => exact ⟨r, h, rfl, fun _ => rfl⟩
      next => exact ih h

/-- If no marked row satisfies `p`, the marks make no difference. -/
theorem map_row_upsertMarked (h : ∀ r ∈ rows, r.malformed → ¬ p r.row) :
    (upsertMarked p f fresh rows).map MarkedRow.row =
      upsert p f fresh (rows.map MarkedRow.row) := by
  induction rows with
  | nil => rfl
  | cons r rest ih =>
    obtain ⟨hr, hrest⟩ := List.forall_mem_cons.mp h
    rw [upsertMarked, List.map_cons, upsert_cons]
    by_cases hp : p r.row
    · have hsound : r.malformed = false := Bool.eq_false_iff.mpr fun hmarked => hr hmarked hp
      rw [if_pos (by simp [hsound, hp]), if_pos hp, List.map_cons]
    · rw [if_neg (by simp [hp]), if_neg hp, List.map_cons, ih hrest]

end Upsert

/-! ## Rows that land -/

section Landing

variable {layerWidth width : Nat} {positions : List Nat} {keys : Option (List (Nat × Nat))}
  {rows : List MarkedRow} {row : Row} {landing : List Row}

/-- A row of the layer finds its key in a row of the result. -/
def finds (width : Nat) (keys : Option (List (Nat × Nat))) (row existing : Row) : Bool :=
  keys.any fun keys => holdsKey width keys row existing

/-- One row of the layer lands, where malformed rows do not take part. -/
def landMarked (layerWidth width : Nat) (positions : List Nat)
    (keys : Option (List (Nat × Nat))) (rows : List MarkedRow) (row : Row) : List MarkedRow :=
  if row.values.length = layerWidth then
    upsertMarked (finds width keys row) (write positions row) (pad width ⟨[], false⟩) rows
  else rows ++ [⟨row, true⟩]

/-- Without the marked rows the sound rows of the layer land as they do. -/
theorem unmarked_foldl_landMarked :
    unmarked (landing.foldl (landMarked layerWidth width positions keys) rows) =
      (landing.filter fun row => row.values.length = layerWidth).foldl
        (landRow layerWidth width positions keys) (unmarked rows) := by
  induction landing generalizing rows with
  | nil => rfl
  | cons row landing ih =>
    rw [List.foldl_cons, ih, landMarked]
    by_cases hrow : row.values.length = layerWidth
    · rw [if_pos hrow, List.filter_cons_of_pos (by simpa using hrow), List.foldl_cons, landRow,
        if_pos hrow, unmarked_upsertMarked]
      rfl
    · rw [if_neg hrow, List.filter_cons_of_neg (by simpa using hrow), unmarked_append,
        unmarked_cons_of_malformed rfl, unmarked_nil, List.append_nil]

/-- The malformed rows of the layer are added to the marked ones. -/
theorem marked_drop_foldl_landMarked {n : Nat} (hn : n ≤ rows.length) :
    marked ((landing.foldl (landMarked layerWidth width positions keys) rows).drop n) =
      marked (rows.drop n) ++ landing.filter fun row => row.values.length ≠ layerWidth := by
  induction landing generalizing rows with
  | nil => exact (List.append_nil _).symm
  | cons row landing ih =>
    rw [List.foldl_cons, landMarked]
    by_cases hrow : row.values.length = layerWidth
    · rw [if_pos hrow, ih (Nat.le_trans hn length_le_upsertMarked), marked_drop_upsertMarked,
        List.filter_cons_of_neg (by simpa using hrow)]
    · have hlength : n ≤ (rows ++ [MarkedRow.mk row true]).length := by
        rw [List.length_append]
        exact Nat.le_add_right_of_le hn
      rw [if_neg hrow, ih hlength, List.drop_append_of_le_length hn, marked_append,
        marked_cons_of_malformed rfl, marked_nil, List.filter_cons_of_pos (by simpa using hrow),
        List.append_assoc, List.singleton_append]

/-- A row that was there keeps its mark, and a marked row keeps all it has. -/
theorem getElem?_foldl_landMarked {i : Nat} {r : MarkedRow} (h : rows[i]? = some r) :
    ∃ new, (landing.foldl (landMarked layerWidth width positions keys) rows)[i]? = some new ∧
      new.malformed = r.malformed ∧ (r.malformed → new = r) := by
  induction landing generalizing rows r with
  | nil => exact ⟨r, h, rfl, fun _ => rfl⟩
  | cons row landing ih =>
    have hone : ∃ new, (landMarked layerWidth width positions keys rows row)[i]? = some new ∧
        new.malformed = r.malformed ∧ (r.malformed → new = r) := by
      unfold landMarked
      split
      next => exact getElem?_upsertMarked h
      next =>
        obtain ⟨hi, -⟩ := List.getElem?_eq_some_iff.mp h
        exact ⟨r, (List.getElem?_append_left hi).trans h, rfl, fun _ => rfl⟩
    obtain ⟨new, hnew, hmark, hsame⟩ := hone
    obtain ⟨newer, hnewer, hmark', hsame'⟩ := ih hnew
    refine ⟨newer, hnewer, hmark'.trans hmark, fun hr => ?_⟩
    rw [hsame' (hmark.trans hr), hsame hr]

/-- If no sound row finds its key in a malformed one, the marks make no difference. Which rows
are malformed is told here by any property that the marked ones have. -/
theorem map_row_foldl_landMarked {P : Row → Prop}
    (hrows : ∀ existing ∈ marked rows, P existing)
    (hstray : ∀ row ∈ landing, row.values.length ≠ layerWidth → P row)
    (h : ∀ row ∈ landing, row.values.length = layerWidth →
      ∀ existing, P existing → ¬ finds width keys row existing) :
    (landing.foldl (landMarked layerWidth width positions keys) rows).map MarkedRow.row =
      landing.foldl (landRow layerWidth width positions keys) (rows.map MarkedRow.row) := by
  induction landing generalizing rows with
  | nil => rfl
  | cons row landing ih =>
    obtain ⟨hrowstray, hstray⟩ := List.forall_mem_cons.mp hstray
    obtain ⟨hrow, hrest⟩ := List.forall_mem_cons.mp h
    rw [List.foldl_cons, List.foldl_cons, landMarked, landRow]
    by_cases hlength : row.values.length = layerWidth
    · have hpassed : ∀ r ∈ rows, r.malformed → ¬ finds width keys row r.row := by
        intro r hr hmarked
        exact hrow hlength _ (hrows _ (List.mem_map_of_mem (List.mem_filter.mpr ⟨hr, hmarked⟩)))
      rw [if_pos hlength, if_pos hlength, ih ?_ hstray hrest, map_row_upsertMarked hpassed]
      · rfl
      · rw [marked_upsertMarked]
        exact hrows
    · rw [if_neg hlength, if_neg hlength, ih ?_ hstray hrest, List.map_append]
      · rfl
      · intro existing hexisting
        rw [marked_append, marked_cons_of_malformed rfl, marked_nil] at hexisting
        rcases List.mem_append.mp hexisting with hexisting | hexisting
        · exact hrows existing hexisting
        · rw [List.mem_singleton.mp hexisting]
          exact hrowstray hlength

end Landing

/-! ## Blocks -/

section Blocks

variable {primaryKey : List String} {base layer : RowBlock}

/-- The rows of a base, padded to a new width, with the malformed ones marked. -/
def paddedMarked (base : RowBlock) (width : Nat) : List MarkedRow :=
  base.rows.map fun row =>
    if row.values.length = base.columns.length then ⟨pad width row, false⟩ else ⟨row, true⟩

theorem map_row_paddedMarked (width : Nat) :
    (base.paddedMarked width).map MarkedRow.row = base.padded width := by
  rw [paddedMarked, padded, List.map_map]
  refine List.map_congr_left fun row _ => ?_
  rw [Function.comp, apply_ite MarkedRow.row]

theorem marked_paddedMarked (width : Nat) : marked (base.paddedMarked width) = base.malformed := by
  unfold paddedMarked malformed
  induction base.rows with
  | nil => rfl
  | cons row rest ih =>
    by_cases h : row.values.length = base.columns.length
    · rw [List.map_cons, if_pos h, marked_cons_of_sound rfl, ih,
        List.filter_cons_of_neg (by simpa using h)]
    · rw [List.map_cons, if_neg h, marked_cons_of_malformed rfl, ih,
        List.filter_cons_of_pos (by simpa using h)]

theorem unmarked_paddedMarked (width : Nat) :
    unmarked (base.paddedMarked width) = base.sound.padded width := by
  unfold paddedMarked padded sound
  show unmarked (base.rows.map _) =
    (base.rows.filter fun row => row.values.length = base.columns.length).map _
  induction base.rows with
  | nil => rfl
  | cons row rest ih =>
    by_cases h : row.values.length = base.columns.length
    · rw [List.map_cons, if_pos h, unmarked_cons_of_sound rfl, ih,
        List.filter_cons_of_pos (by simpa using h), List.map_cons, if_pos h]
    · rw [List.map_cons, if_neg h, unmarked_cons_of_malformed rfl, ih,
        List.filter_cons_of_neg (by simpa using h)]

/-- A row of the layer finds its key in a row over the columns of the result. -/
def Finds (primaryKey : List String) (base layer : RowBlock) (row existing : Row) : Prop :=
  finds (overlay primaryKey base layer).columns.length
    (keyPositions primaryKey layer (align base.columns layer.columns).positions) row existing

theorem Finds.length_eq {row existing : Row} (h : Finds primaryKey base layer row existing) :
    existing.values.length = (overlay primaryKey base layer).columns.length := by
  unfold Finds finds at h
  rw [Option.any_eq_true] at h
  obtain ⟨keys, -, hheld⟩ := h
  rw [holdsKey, Bool.and_eq_true, beq_iff_eq] at hheld
  exact hheld.1

/-- Malformed rows that no sound row of the layer finds its key in are inert. -/
theorem malformedInert_of_not_found
    (h : ∀ row ∈ layer.sound.rows, ∀ existing ∈ base.malformed ++ layer.malformed,
      ¬ Finds primaryKey base layer row existing) :
    MalformedInert primaryKey base layer := by
  have hlength : base.rows.length =
      (base.paddedMarked (overlay primaryKey base layer).columns.length).length :=
    (List.length_map _).symm
  have hlanding : ∀ row ∈ layer.rows, row.values.length = layer.columns.length →
      ∀ existing, existing ∈ base.malformed ++ layer.malformed →
        ¬ Finds primaryKey base layer row existing :=
    fun row hrow hsound => h row (List.mem_filter.mpr ⟨hrow, by simpa using hsound⟩)
  refine ⟨layer.rows.foldl (landMarked layer.columns.length
      (overlay primaryKey base layer).columns.length
      (align base.columns layer.columns).positions
      (keyPositions primaryKey layer (align base.columns layer.columns).positions))
    (base.paddedMarked (overlay primaryKey base layer).columns.length), ?_, ?_, ?_, ?_⟩
  · -- no row that bears a mark is found
    rw [map_row_foldl_landMarked (P := (· ∈ base.malformed ++ layer.malformed)) ?_ ?_ hlanding,
      map_row_paddedMarked]
    · rfl
    · rw [marked_paddedMarked]
      exact fun row hrow => List.mem_append_left _ hrow
    · exact fun row hrow hstray => List.mem_append_right _
        (List.mem_filter.mpr ⟨hrow, by simpa using hstray⟩)
  · -- the rows of the base keep their places and their marks
    intro i old hold
    have hmark : (base.paddedMarked (overlay primaryKey base layer).columns.length)[i]? =
        some (if old.values.length = base.columns.length then
          ⟨pad (overlay primaryKey base layer).columns.length old, false⟩ else ⟨old, true⟩) := by
      rw [paddedMarked, List.getElem?_map, hold, Option.map_some]
    obtain ⟨new, hnew, hmarked, hsame⟩ := getElem?_foldl_landMarked hmark
    refine ⟨new, hnew, ?_, fun hnewmarked => ?_⟩
    · rw [hmarked]
      split
      next hsound => simp [hsound]
      next hmalformed => simp [hmalformed]
    · rw [hmarked] at hnewmarked
      rw [hsame hnewmarked]
      split at hnewmarked
      next => exact absurd hnewmarked (by simp)
      next hmalformed => rw [if_neg hmalformed]
  · rw [marked_drop_foldl_landMarked (Nat.le_of_eq hlength), hlength, List.drop_length, marked_nil,
      List.nil_append]
    rfl
  · rw [unmarked_foldl_landMarked, unmarked_paddedMarked]
    rfl

/-- **Malformed rows are inert, unless one is found.** The one that is found has the width of
the result, and the key of a sound row of the layer. -/
theorem malformedInert_or_found (primaryKey : List String) (base layer : RowBlock) :
    MalformedInert primaryKey base layer ∨
      ∃ existing ∈ base.malformed ++ layer.malformed,
        existing.values.length = (overlay primaryKey base layer).columns.length ∧
          ∃ row ∈ layer.sound.rows, Finds primaryKey base layer row existing := by
  by_cases h : ∃ existing ∈ base.malformed ++ layer.malformed,
      ∃ row ∈ layer.sound.rows, Finds primaryKey base layer row existing
  · obtain ⟨existing, hexisting, row, hrow, hfinds⟩ := h
    exact .inr ⟨existing, hexisting, hfinds.length_eq, row, hrow, hfinds⟩
  · exact .inl (malformedInert_of_not_found fun row hrow existing hexisting hfinds =>
      h ⟨existing, hexisting, row, hrow, hfinds⟩)

end Blocks

/-- One column, and a row of two values. -/
def drafts : RowBlock where
  columns := ["id"]
  rows := [.ofValues ["1", "draft"]]

/-- Two columns, and as many values. -/
def labels : RowBlock where
  columns := ["id", "label"]
  rows := [.ofValues ["1", "open"]]

/-- The row of two values has the width of the result, and is written over. -/
theorem not_malformedInert_drafts : ¬ MalformedInert ["id"] drafts labels := by
  intro h
  obtain ⟨rows, hrows, hbase, -, -⟩ := h
  obtain ⟨new, hnew, hmark, hsame⟩ := hbase 0 (.ofValues ["1", "draft"]) rfl
  have hresult : (overlay ["id"] drafts labels).rows[0]? = some (.ofValues ["1", "open"]) := by
    decide +kernel
  rw [← hrows, List.getElem?_map, hnew, Option.map_some, hsame (hmark.mpr (by decide))] at hresult
  exact absurd hresult (by decide)

end LayeredSchema.RowBlock
