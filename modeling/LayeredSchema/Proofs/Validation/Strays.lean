import LayeredSchema.Proofs.Overlay.Position
import LayeredSchema.Proofs.Validation.Count

/-!
# Malformed rows under a layer

A malformed row is told by its length, which has to be that of the columns of its
block. A layer leaves the lengths of malformed rows alone and adds columns, so that
a row may come to have the right length by accident: from then on nothing tells it
from a row that was well-formed all the time.

How far malformed rows are found in spite of that is an equation. After a layer the
*strays* of a table, the lengths of its malformed rows, are those of both tables
that differ from the new width (`Table.strays_overlay`). So a row is reported in the
end exactly if its length is the width of the block at no stage from its arrival on
(`Table.mem_strays_foldl_overlay_iff`), and `rowArity_overlay_iff` says this of the
tables of a definition.
-/

namespace LayeredSchema

open Violation (tally)

/-! ## Blocks -/

namespace RowBlock

/-- The lengths of the rows that are not as long as they should be. -/
def strayLengths (width : Nat) (rows : List Row) : List Nat :=
  (rows.map fun row => row.values.length).filter fun n => n ≠ width

/-- The lengths of the malformed rows. -/
def strays (block : RowBlock) : List Nat := strayLengths block.columns.length block.rows

section Landing

variable {layerWidth width : Nat} {positions : List Nat} {keys : Option (List (Nat × Nat))}
  {rows : List Row}

theorem strayLengths_append (before after : List Row) :
    strayLengths width (before ++ after) =
      strayLengths width before ++ strayLengths width after := by
  rw [strayLengths, List.map_append, List.filter_append]
  rfl

theorem strayLengths_cons (row : Row) (rest : List Row) :
    strayLengths width (row :: rest) = strayLengths width [row] ++ strayLengths width rest :=
  strayLengths_append [row] rest

theorem strayLengths_singleton {row : Row} (h : row.values.length = width) :
    strayLengths width [row] = [] := by
  simp [strayLengths, h]

/-- Edits that keep lengths keep strays, and so does a fresh row of the right length. -/
theorem strayLengths_upsert {p : Row → Bool} {f : Row → Row} {fresh : Row}
    (hf : ∀ row, (f row).values.length = row.values.length)
    (hfresh : fresh.values.length = width) :
    strayLengths width (upsert p f fresh rows) = strayLengths width rows := by
  have hone : (f fresh).values.length = width := (hf fresh).trans hfresh
  unfold strayLengths
  rw [map_upsert fun row _ _ => hf row]
  split
  next => rfl
  next => rw [List.filter_append, List.filter_cons_of_neg (by simp [hone]), List.filter_nil,
    List.append_nil]

/-- A row that lands is a stray if it was malformed and does not have the new width. -/
theorem strayLengths_landRow (row : Row) :
    strayLengths width (landRow layerWidth width positions keys rows row) =
      strayLengths width rows ++ (strayLengths layerWidth [row]).filter fun n => n ≠ width := by
  unfold landRow
  split
  next h =>
    rw [strayLengths_upsert (fun existing => length_write positions row existing)
      (length_pad (Nat.zero_le width)), strayLengths_singleton h, List.filter_nil,
      List.append_nil]
  next h =>
    have hstray : strayLengths layerWidth [row] = [row.values.length] := by
      simp [strayLengths, h]
    rw [strayLengths_append, hstray]
    rfl

theorem strayLengths_foldl_landRow (landing : List Row) :
    strayLengths width (landing.foldl (landRow layerWidth width positions keys) rows) =
      strayLengths width rows ++ (strayLengths layerWidth landing).filter fun n => n ≠ width := by
  induction landing generalizing rows with
  | nil => rw [List.foldl_nil]; exact (List.append_nil _).symm
  | cons row landing ih =>
    rw [List.foldl_cons, ih, strayLengths_landRow, strayLengths_cons row landing,
      List.filter_append, List.append_assoc]

end Landing

/-- Padding leaves no stray but the malformed rows, as far as their length is not the
new width. -/
theorem strayLengths_padded (base : RowBlock) {width : Nat} (h : base.columns.length ≤ width) :
    strayLengths width (base.padded width) = base.strays.filter fun n => n ≠ width := by
  unfold strays padded
  induction base.rows with
  | nil => rfl
  | cons row rest ih =>
    rw [List.map_cons, strayLengths_cons, ih, strayLengths_cons row rest, List.filter_append]
    congr 1
    split
    next hlength =>
      rw [strayLengths_singleton hlength, List.filter_nil]
      exact strayLengths_singleton (length_pad (hlength ▸ h))
    next hlength => simp [strayLengths, hlength]

/-- **Strays of a block.** The malformed rows of both blocks stay malformed but for those
that have the new width. -/
theorem strays_overlay (primaryKey : List String) (base layer : RowBlock) :
    (overlay primaryKey base layer).strays =
      (base.strays ++ layer.strays).filter fun n =>
        n ≠ (overlay primaryKey base layer).columns.length := by
  have hwidth : base.columns.length ≤ (overlay primaryKey base layer).columns.length :=
    length_align base.columns layer.columns
  rw [List.filter_append, ← strayLengths_padded base hwidth]
  exact strayLengths_foldl_landRow layer.rows

end RowBlock

/-! ## Tables -/

namespace Table

/-- The lengths of the malformed rows of a table. -/
def strays (t : Table) : List Nat := t.rows.elim [] RowBlock.strays

/-- The width of the rows of a table, if it has a block of them. -/
def width (t : Table) : Option Nat := t.rows.map fun block => block.columns.length

variable {t : Table} {landed : List Table} {n k : Nat}

/-- A stray does not have the width of its table. -/
theorem width_ne_of_mem_strays (h : k ∈ t.strays) : t.width ≠ some k := by
  unfold strays at h
  unfold width
  cases hrows : t.rows with
  | none => simp
  | some block =>
    rw [hrows] at h
    have hne : k ≠ block.columns.length := of_decide_eq_true (List.mem_filter.mp h).2
    intro hwidth
    exact hne (Option.some.inj hwidth).symm

theorem filter_strays (t : Table) : (t.strays.filter fun k => t.width ≠ some k) = t.strays :=
  List.filter_eq_self.mpr fun _ hk => decide_eq_true (width_ne_of_mem_strays hk)

theorem strays_overlay (t layer : Table) :
    (Overlay.overlay t layer).strays =
      (t.strays ++ layer.strays).filter fun k => (Overlay.overlay t layer).width ≠ some k := by
  have hrows : (Overlay.overlay t layer).rows =
    RowBlock.overlayOption layer.primaryKey t.rows layer.rows := rfl
  cases hbase : t.rows with
  | none =>
    -- the rows of the layer are taken over as they are
    have hstrays : t.strays = [] := by rw [strays, hbase, Option.elim_none]
    have hlayer : (Overlay.overlay t layer).rows = layer.rows := by
      rw [hrows, hbase]
      cases layer.rows <;> rfl
    rw [hstrays, List.nil_append, width, strays, hlayer]
    exact (filter_strays layer).symm
  | some base =>
    cases hlayer : layer.rows with
    | none =>
      have hstrays : layer.strays = [] := by rw [strays, hlayer, Option.elim_none]
      have hkept : (Overlay.overlay t layer).rows = t.rows := by rw [hrows, hlayer, hbase]; rfl
      rw [hstrays, List.append_nil, width, strays, hkept]
      exact (filter_strays t).symm
    | some block =>
      rw [hbase, hlayer] at hrows
      simp only [strays, width, hrows, hbase, hlayer, RowBlock.overlayOption, Option.elim_some,
        Option.map_some, ne_eq, Option.some.injEq]
      rw [RowBlock.strays_overlay]
      simp only [ne_eq, eq_comm]

/-- From the moment when the table at position `n` has landed, the rows never have the given
width. -/
def NeverWide (t : Table) (landed : List Table) (n k : Nat) : Prop :=
  ∀ m < landed.length, n ≤ m → ((landed.take (m + 1)).foldl Overlay.overlay t).width ≠ some k

theorem neverWide_cons_succ {l : Table} :
    t.NeverWide (l :: landed) (n + 1) k ↔ (Overlay.overlay t l).NeverWide landed n k := by
  constructor
  · intro h m hm hnm
    exact h (m + 1) (Nat.succ_lt_succ hm) (Nat.succ_le_succ hnm)
  · intro h m hm hnm
    obtain ⟨m, rfl⟩ := Nat.exists_eq_add_of_le' (Nat.one_le_of_lt hnm)
    exact h m (Nat.lt_of_succ_lt_succ hm) (Nat.le_of_succ_le_succ hnm)

theorem neverWide_cons_zero {l : Table} :
    t.NeverWide (l :: landed) 0 k ↔
      (Overlay.overlay t l).width ≠ some k ∧ (Overlay.overlay t l).NeverWide landed 0 k := by
  rw [← neverWide_cons_succ]
  constructor
  · intro h
    exact ⟨h 0 (Nat.zero_lt_succ _) (Nat.le_refl 0), fun m hm _ => h m hm (Nat.zero_le m)⟩
  · rintro ⟨hfirst, hrest⟩ m hm -
    cases m with
    | zero => exact hfirst
    | succ m => exact hrest (m + 1) hm (Nat.succ_le_succ (Nat.zero_le m))

/-- **Strays of a table.** A row is malformed in the end if it was when it arrived and the
rows have never since been as wide as it is long. -/
theorem mem_strays_foldl_overlay_iff : k ∈ (landed.foldl Overlay.overlay t).strays ↔
    (k ∈ t.strays ∧ t.NeverWide landed 0 k) ∨
      ∃ n l, landed[n]? = some l ∧ k ∈ l.strays ∧ t.NeverWide landed n k := by
  induction landed generalizing t with
  | nil => simp [NeverWide]
  | cons l landed ih =>
    have hone : k ∈ (Overlay.overlay t l).strays ↔
        (k ∈ t.strays ∨ k ∈ l.strays) ∧ (Overlay.overlay t l).width ≠ some k := by
      rw [strays_overlay, List.mem_filter, List.mem_append, decide_eq_true_iff]
    rw [List.foldl_cons, ih, hone, neverWide_cons_zero]
    constructor
    · rintro (⟨⟨ht | hl, hwidth⟩, hrest⟩ | ⟨n, l', hl', hk, hrest⟩)
      · exact .inl ⟨ht, hwidth, hrest⟩
      · exact .inr ⟨0, l, rfl, hl, neverWide_cons_zero.mpr ⟨hwidth, hrest⟩⟩
      · exact .inr ⟨n + 1, l', hl', hk, neverWide_cons_succ.mpr hrest⟩
    · rintro (⟨ht, hwidth, hrest⟩ | ⟨n, l', hl', hk, hnever⟩)
      · exact .inl ⟨⟨.inl ht, hwidth⟩, hrest⟩
      · cases n with
        | zero =>
          obtain rfl : l = l' := Option.some.inj hl'
          obtain ⟨hwidth, hrest⟩ := neverWide_cons_zero.mp hnever
          exact .inl ⟨⟨.inr hk, hwidth⟩, hrest⟩
        | succ n => exact .inr ⟨n, l', hl', hk, neverWide_cons_succ.mp hnever⟩

/-- Validation reports one violation for each stray. -/
theorem tally_rowArity (t : Table) (schema : String) :
    tally .rowArity (t.violations schema) = t.strays.length := by
  rw [tally_violations, count, strays]
  cases t.rows with
  | none => rfl
  | some block =>
    rw [Option.toList_some, List.map_singleton, List.sum_singleton, Option.elim_some,
      RowBlock.strays, RowBlock.strayLengths, ← List.countP_eq_length_filter, List.countP_map]
    rfl

end Table

/-! ## Definitions -/

namespace Definition

variable {base : Definition} {i j : Nat} {s : Schema} {t : Table}

/-- **Which row errors survive a layer.** A table of the base is reported for its rows
exactly if some malformed row, of the table itself or of one that lands on it, has a
length that has not been the width of the rows since. Where a single table lands there
is one violation for each malformed row of the two but for those that have the width of
the result. -/
theorem rowArity_overlay_iff (layer : Definition) (hs : base.schemas[i]? = some s)
    (ht : s.tables[j]? = some t) :
    ∃ r u, (Overlay.overlay base layer).schemas[i]? = some r ∧ r.name = s.name ∧
      r.tables[j]? = some u ∧
      (∀ v ∈ u.violations r.name, v ∈ (Overlay.overlay base layer).violations) ∧
      ((∃ v ∈ u.violations r.name, v.code = .rowArity) ↔
        (∃ k ∈ t.strays, t.NeverWide (base.landedOn i s j layer) 0 k) ∨
        ∃ n l, (base.landedOn i s j layer)[n]? = some l ∧
          ∃ k ∈ l.strays, t.NeverWide (base.landedOn i s j layer) n k) ∧
      ∀ l, base.landedOn i s j layer = [l] →
        tally .rowArity (u.violations r.name) =
          ((t.strays ++ l.strays).filter fun k => u.width ≠ some k).length := by
  obtain ⟨r, hr, hname, hu⟩ := table_overlay layer hs ht
  refine ⟨r, _, hr, hname, hu, ?_, ?_, ?_⟩
  · intro v hv
    have hschema : v ∈ r.violations :=
      List.mem_append_right _ (List.mem_flatMap.mpr ⟨_, List.mem_of_getElem? hu, hv⟩)
    exact List.mem_append_right _ (List.mem_flatMap.mpr ⟨r, List.mem_of_getElem? hr, hschema⟩)
  · have hsome : (∃ v ∈ ((base.landedOn i s j layer).foldl Overlay.overlay t).violations r.name,
        v.code = .rowArity) ↔
        ∃ k, k ∈ ((base.landedOn i s j layer).foldl Overlay.overlay t).strays := by
      rw [← List.length_pos_iff_exists_mem, ← Table.tally_rowArity _ r.name, tally,
        List.countP_pos_iff]
      simp only [decide_eq_true_eq]
    rw [hsome]
    simp only [Table.mem_strays_foldl_overlay_iff]
    constructor
    · rintro ⟨k, ⟨hk, hnever⟩ | ⟨n, l, hl, hk, hnever⟩⟩
      · exact .inl ⟨k, hk, hnever⟩
      · exact .inr ⟨n, l, hl, k, hk, hnever⟩
    · rintro (⟨k, hk, hnever⟩ | ⟨n, l, hl, k, hk, hnever⟩)
      · exact ⟨k, .inl ⟨hk, hnever⟩⟩
      · exact ⟨k, .inr ⟨n, l, hl, hk, hnever⟩⟩
  · intro l hl
    rw [Table.tally_rowArity, hl, List.foldl_cons, List.foldl_nil, Table.strays_overlay]

/-- A table of statuses that ships with rows. -/
def statuses (columns : List String) (rows : List (List String)) : Table where
  name := "status"
  columns := [.typed "id" "int", .typed "label" "text"]
  primaryKey := ["id"]
  rows := some { columns := columns, rows := rows.map Row.ofValues }

/-- A definition of nothing but a table of statuses. -/
def onlyStatuses (t : Table) : Definition := { schemas := [{ name := "public", tables := [t] }] }

/-- Two columns, and as many values. -/
def labelled : Table := statuses ["id", "label"] [["1", "open"]]

/-- One column, and rows of two values and of three. -/
def ragged : Table := statuses ["ID"] [["2", "closed"], ["3", "late", "?"]]

/-- One column, and a row of two values. -/
def overlong : Table := statuses ["id"] [["2", "closed"]]

/-- The result has two columns, so that only the row of three values is found. -/
theorem rowArity_overlay_iff_ragged :
    ∃ r u, (Overlay.overlay (onlyStatuses labelled) (onlyStatuses ragged)).schemas[0]? = some r ∧
      r.tables[0]? = some u ∧ (∃ v ∈ u.violations r.name, v.code = .rowArity) ∧
      ragged.strays = [2, 3] ∧ tally .rowArity (u.violations r.name) = 1 := by
  have hs : (onlyStatuses labelled).schemas[0]? = some { name := "public", tables := [labelled] } :=
    rfl
  obtain ⟨r, u, hr, -, hu, -, hiff, hone⟩ :=
    rowArity_overlay_iff (onlyStatuses ragged) hs (List.getElem?_cons_zero)
  have hwidth : ((Overlay.overlay (onlyStatuses labelled) (onlyStatuses ragged)).schemas[0]?.bind
      fun r => r.tables[0]?).map Table.width = some (some 2) := by
    decide +kernel
  rw [hr, Option.bind_some, hu, Option.map_some, Option.some.injEq] at hwidth
  have htally : tally .rowArity (u.violations r.name) = 1 := by
    rw [hone ragged (by decide +kernel), hwidth]
    decide +kernel
  refine ⟨r, u, hr, hu, hiff.mpr (.inr ⟨0, ragged, by decide +kernel, 3, by decide +kernel, ?_⟩),
    by decide +kernel, htally⟩
  intro m hm _
  obtain rfl : m = 0 := Nat.lt_one_iff.mp hm
  decide +kernel

/-- The one row of the layer is malformed, and the result has as many columns as it has
values: nothing is reported. -/
theorem rowArity_overlay_unnoticed :
    (onlyStatuses labelled).landedOn 0 { name := "public", tables := [labelled] } 0
        (onlyStatuses overlong) = [overlong] ∧
      labelled.strays = [] ∧ overlong.strays = [2] ∧
      (Overlay.overlay (onlyStatuses labelled) (onlyStatuses overlong)).violations = [] := by
  refine ⟨?_, ?_, ?_, ?_⟩
  · decide +kernel
  · decide +kernel
  · decide +kernel
  · decide +kernel

end Definition

end LayeredSchema
