import LayeredSchema.Proofs.Overlay.Align
import LayeredSchema.Proofs.Overlay.Rows

/-!
# Rows that land twice

A row block over which another one was laid has everything that a second laying
would bring, if the rows of the layer can be told apart by the primary key
(`RowBlock.Keyed`). The reason is that each row of the layer is *settled* in the
result: the first row that holds its key has its values already, so that landing
on it once more changes nothing. A row settles as it lands (`settled_upsert`),
and stays settled as rows of other keys land, since none of them becomes or
leaves a row of its key (`Settled.upsert_other`).

The main results are `overlay_again`, for a block over any base, and
`overlay_self`, for a block over itself.
-/

namespace LayeredSchema

namespace Siblings

variable {α : Type} {p q : α → Bool} {f g : α → α} {siblings edited : List α}

/-! ## Edits that are made twice -/

/-- An edit after which the sibling is left alone by another such edit. -/
theorem modifyFirst?_again (hp : ∀ a, p a → p (f a)) (hf : ∀ a, p a → f (f a) = f a)
    (h : modifyFirst? p f siblings = some edited) : modifyFirst? p f edited = some edited := by
  induction siblings generalizing edited with
  | nil => exact absurd h (by simp [modifyFirst?])
  | cons a rest ih =>
    rw [modifyFirst?] at h
    split at h
    next ha =>
      obtain rfl := Option.some.inj h
      rw [modifyFirst?, if_pos (hp a ha), hf a ha]
    next ha =>
      obtain ⟨rest', hrest, rfl⟩ := Option.map_eq_some_iff.mp h
      rw [modifyFirst?, if_neg ha, ih hrest, Option.map_some]

/-- An edit that changes nothing still changes nothing after an edit of siblings
that it is not about. -/
theorem modifyFirst?_other (hpq : ∀ a, p a → ¬ q a) (hq : ∀ a, q a → q (g a))
    (hp : modifyFirst? p f siblings = some siblings)
    (h : modifyFirst? q g siblings = some edited) : modifyFirst? p f edited = some edited := by
  induction siblings generalizing edited with
  | nil => exact absurd h (by simp [modifyFirst?])
  | cons a rest ih =>
    rw [modifyFirst?] at hp h
    by_cases ha : p a
    · -- the other edit passes the sibling over
      rw [if_pos ha, Option.some.injEq, List.cons.injEq] at hp
      rw [if_neg (hpq a ha)] at h
      obtain ⟨rest', -, rfl⟩ := Option.map_eq_some_iff.mp h
      rw [modifyFirst?, if_pos ha, hp.1]
    · rw [if_neg ha] at hp
      obtain ⟨same, hrest, hsame⟩ := Option.map_eq_some_iff.mp hp
      obtain rfl := (List.cons.inj hsame).2
      split at h
      next hqa =>
        obtain rfl := Option.some.inj h
        rw [modifyFirst?, if_neg fun hpa => hpq _ hpa (hq a hqa), hrest, Option.map_some]
      next =>
        obtain ⟨rest', hrest', rfl⟩ := Option.map_eq_some_iff.mp h
        rw [modifyFirst?, if_neg ha, ih hrest hrest', Option.map_some]

theorem modifyFirst?_append (h : modifyFirst? p f siblings = some edited) (more : List α) :
    modifyFirst? p f (siblings ++ more) = some (edited ++ more) := by
  induction siblings generalizing edited with
  | nil => exact absurd h (by simp [modifyFirst?])
  | cons a rest ih =>
    rw [modifyFirst?] at h
    rw [List.cons_append, modifyFirst?]
    split at h
    next ha =>
      obtain rfl := Option.some.inj h
      rw [if_pos ha, List.cons_append]
    next ha =>
      obtain ⟨rest', hrest, rfl⟩ := Option.map_eq_some_iff.mp h
      rw [if_neg ha, ih hrest, Option.map_some, List.cons_append]

theorem modifyFirst?_append_of_none (h : modifyFirst? p f siblings = none) (more : List α) :
    modifyFirst? p f (siblings ++ more) = (modifyFirst? p f more).map (siblings ++ ·) := by
  induction siblings with
  | nil => simp
  | cons a rest ih =>
    rw [modifyFirst?] at h
    split at h
    next => exact absurd h (by simp)
    next ha =>
      rw [List.cons_append, modifyFirst?, if_neg ha, ih (Option.map_eq_none_iff.mp h),
        Option.map_map]
      rfl

end Siblings

namespace RowBlock

open Siblings (modifyFirst? modifyFirst?_again modifyFirst?_other modifyFirst?_append
  modifyFirst?_append_of_none)

/-! ## Rows that have settled -/

/-- The first row with the property has what landing on it would bring. -/
def Settled (p : Row → Bool) (f : Row → Row) (rows : List Row) : Prop :=
  modifyFirst? p f rows = some rows

section Settled

variable {p q : Row → Bool} {f g : Row → Row} {fresh : Row} {rows : List Row}

theorem Settled.upsert_eq (h : Settled p f rows) : upsert p f fresh rows = rows := by
  rw [upsert, h, Option.getD_some]

/-- What landed has settled. -/
theorem settled_upsert (hp : ∀ a, p a → p (f a)) (hf : ∀ a, p a → f (f a) = f a)
    (hfresh : p (f fresh)) (hffresh : f (f fresh) = f fresh) :
    Settled p f (upsert p f fresh rows) := by
  unfold upsert Settled
  cases h : modifyFirst? p f rows with
  | none =>
    rw [Option.getD_none, modifyFirst?_append_of_none h, modifyFirst?, if_pos hfresh, hffresh,
      Option.map_some]
  | some edited =>
    rw [Option.getD_some]
    exact modifyFirst?_again hp hf h

/-- What has settled stays so while something else lands. -/
theorem Settled.upsert_other (h : Settled p f rows) (hpq : ∀ a, p a → ¬ q a)
    (hq : ∀ a, q a → q (g a)) : Settled p f (upsert q g fresh rows) := by
  unfold upsert
  cases hother : modifyFirst? q g rows with
  | none => exact modifyFirst?_append h _
  | some edited => exact modifyFirst?_other hpq hq h hother

end Settled

/-! ## Writing values -/

section Writes

variable {writes : List (Nat × Option String)} {values : List (Option String)}

/-- Of several writes at a position the last one is read. -/
theorem getElem?_foldl_set_eq (i : Nat) :
    (writes.foldl (fun values w => values.set w.1 w.2) values)[i]? =
      values[i]?.map (((writes.filter fun w => w.1 = i).getLast?.map Prod.snd).getD ·) := by
  induction writes generalizing values with
  | nil => simp
  | cons w writes ih =>
    rw [List.foldl_cons, ih, List.filter_cons]
    by_cases hw : w.1 = i
    · subst hw
      rw [if_pos (by simp), List.getLast?_cons, List.getElem?_set_self']
      cases values[w.1]? <;> cases (writes.filter fun later => later.1 = w.1).getLast? <;> rfl
    · rw [if_neg (by simpa using hw), List.getElem?_set_ne hw]

theorem getElem?_foldl_set_of_not_mem {i : Nat} (h : i ∉ writes.map Prod.fst) :
    (writes.foldl (fun values w => values.set w.1 w.2) values)[i]? = values[i]? := by
  have hnone : writes.filter (fun w => w.1 = i) = [] := by
    rw [List.filter_eq_nil_iff]
    intro w hw heq
    exact h (List.mem_map.mpr ⟨w, hw, of_decide_eq_true heq⟩)
  rw [getElem?_foldl_set_eq, hnone]
  simp

/-- Writes at positions that differ are all there in the end. -/
theorem getElem?_foldl_set (hnodup : (writes.map Prod.fst).Nodup) {w : Nat × Option String}
    (hw : w ∈ writes) (hlt : w.1 < values.length) :
    (writes.foldl (fun values w => values.set w.1 w.2) values)[w.1]? = some w.2 := by
  induction writes generalizing values with
  | nil => exact absurd hw List.not_mem_nil
  | cons first writes ih =>
    rw [List.map_cons, List.nodup_cons] at hnodup
    obtain ⟨hfirst, hrest⟩ := hnodup
    rw [List.foldl_cons]
    rcases List.mem_cons.mp hw with rfl | hw
    · rw [getElem?_foldl_set_of_not_mem hfirst, List.getElem?_set_self hlt]
    · exact ih hrest hw (by rw [List.length_set]; exact hlt)

/-- Writing what is there already changes nothing. -/
theorem foldl_set_eq_self (h : ∀ w ∈ writes, values[w.1]? = some w.2) :
    writes.foldl (fun values w => values.set w.1 w.2) values = values := by
  induction writes with
  | nil => rfl
  | cons w writes ih =>
    obtain ⟨hw, hrest⟩ := List.forall_mem_cons.mp h
    obtain ⟨hlt, hvalue⟩ := List.getElem?_eq_some_iff.mp hw
    rw [List.foldl_cons, ← hvalue, List.set_getElem_self, ih hrest]

end Writes

/-! ## Rows told apart by a key -/

/-- The values of a row in the columns of the primary key. -/
def keyOf (primaryKey : List String) (block : RowBlock) (row : Row) : List (Option String) :=
  primaryKey.map fun name => row.value (columnAt block.columns name)

/-- The rows of a block can be told apart by a primary key: no two columns are the
same, the key has columns, and all of them are in the block; each row has one value
for each column and no NULL in the key, and no two rows have the same key. -/
structure Keyed (primaryKey : List String) (block : RowBlock) : Prop where
  columns : block.columns.Pairwise fun a b => Name.fold a ≠ Name.fold b
  key_ne_nil : primaryKey ≠ []
  found : ∀ name ∈ primaryKey, Found block.columns name
  wellFormed : block.WellFormed
  declared : ∀ row ∈ block.rows, none ∉ block.keyOf primaryKey row
  distinct : block.rows.Pairwise fun a b => block.keyOf primaryKey a ≠ block.keyOf primaryKey b

instance (primaryKey : List String) (block : RowBlock) : Decidable (block.Keyed primaryKey) :=
  decidable_of_iff
    ((block.columns.Pairwise fun a b => Name.fold a ≠ Name.fold b) ∧ primaryKey ≠ [] ∧
      (∀ name ∈ primaryKey, Found block.columns name) ∧
      (∀ row ∈ block.rows, row.values.length = block.columns.length) ∧
      (∀ row ∈ block.rows, none ∉ block.keyOf primaryKey row) ∧
      block.rows.Pairwise fun a b => block.keyOf primaryKey a ≠ block.keyOf primaryKey b)
    ⟨fun ⟨hc, hk, hf, hw, hd, hp⟩ => ⟨hc, hk, hf, hw, hd, hp⟩,
      fun ⟨hc, hk, hf, hw, hd, hp⟩ => ⟨hc, hk, hf, hw, hd, hp⟩⟩

/-- A block that has a primary key to tell rows apart by: no two columns are the same, the key
has columns, all of them are in the block, and each row has one value for each column. -/
structure HasKey (primaryKey : List String) (block : RowBlock) : Prop where
  columns : block.columns.Pairwise fun a b => Name.fold a ≠ Name.fold b
  key_ne_nil : primaryKey ≠ []
  found : ∀ name ∈ primaryKey, Found block.columns name
  wellFormed : block.WellFormed

instance (primaryKey : List String) (block : RowBlock) : Decidable (block.HasKey primaryKey) :=
  decidable_of_iff
    ((block.columns.Pairwise fun a b => Name.fold a ≠ Name.fold b) ∧ primaryKey ≠ [] ∧
      (∀ name ∈ primaryKey, Found block.columns name) ∧
      ∀ row ∈ block.rows, row.values.length = block.columns.length)
    ⟨fun ⟨hc, hk, hf, hw⟩ => ⟨hc, hk, hf, hw⟩, fun ⟨hc, hk, hf, hw⟩ => ⟨hc, hk, hf, hw⟩⟩

section HasKey

variable {primaryKey : List String} {layer : RowBlock} {columns : List String} {row : Row}

theorem Keyed.hasKey (h : layer.Keyed primaryKey) : layer.HasKey primaryKey :=
  ⟨h.columns, h.key_ne_nil, h.found, h.wellFormed⟩

/-- The values of a row over the given columns in the columns of the primary key. -/
def keyAt (primaryKey : List String) (columns : List String) (row : Row) :
    List (Option String) :=
  primaryKey.map fun name => row.value (columnAt columns name)

/-- A row over the columns of a base holds the key of a row of the layer. -/
def holds (primaryKey : List String) (layer : RowBlock) (columns : List String)
    (row existing : Row) : Bool :=
  holdsKey columns.length
    (primaryKey.map fun name => (columnAt layer.columns name, columnAt columns name)) row existing

/-- A row over the columns of a base with a row of the layer written over it. -/
def fill (layer : RowBlock) (columns : List String) (row existing : Row) : Row :=
  write (layer.columns.map (columnAt columns)) row existing

theorem mapM_eq_some_map {α β : Type} {f : α → Option β} {g : α → β} {l : List α}
    (h : ∀ a ∈ l, f a = some (g a)) : l.mapM f = some (l.map g) := by
  induction l with
  | nil => rfl
  | cons a l ih =>
    obtain ⟨ha, hl⟩ := List.forall_mem_cons.mp h
    rw [List.mapM_cons, ha, ih hl]
    rfl

/-- Where the columns of the key stand in the layer and among the columns of the base. -/
theorem keyPositions_of_found (hkey : primaryKey ≠ [])
    (hfound : ∀ name ∈ primaryKey, Found layer.columns name) :
    keyPositions primaryKey layer (layer.columns.map (columnAt columns)) =
      some (primaryKey.map fun name => (columnAt layer.columns name, columnAt columns name)) := by
  unfold keyPositions
  rw [if_neg (by simpa using hkey)]
  refine mapM_eq_some_map fun name hname => ?_
  have hlt := (hfound name hname).columnAt_lt
  have hposition : (layer.columns.map (columnAt columns))[columnAt layer.columns name]? =
      some (columnAt columns name) := by
    rw [List.getElem?_map, List.getElem?_eq_getElem hlt, Option.map_some,
      columnAt_congr (fold_getElem_columnAt hlt)]
  rw [columnIndex?, findIdx?_same_of_found (hfound name hname)]
  show (layer.columns.map (columnAt columns))[columnAt layer.columns name]?.bind _ = _
  rw [hposition]
  rfl

theorem value_of_getElem? {i : Nat} {value : Option String} (h : row.values[i]? = some value) :
    row.value i = value := by
  rw [Row.value, h]
  rfl

/-- A row holds the key of a row of the layer if it has the width of the columns and
the same values in the columns of the key, none of them NULL. -/
theorem holds_iff {existing : Row} :
    holds primaryKey layer columns row existing ↔ existing.values.length = columns.length ∧
      none ∉ layer.keyOf primaryKey row ∧
      keyAt primaryKey columns existing = layer.keyOf primaryKey row := by
  unfold holds holdsKey keyOf keyAt
  rw [Bool.and_eq_true, beq_iff_eq, List.all_map, List.all_eq_true, List.map_inj_left,
    List.mem_map, not_exists]
  refine and_congr_right fun _ => ?_
  rw [← forall_and]
  refine forall_congr' fun name => ?_
  simp only [Function.comp, Bool.and_eq_true, Option.isSome_iff_ne_none, beq_iff_eq, ne_eq]
  tauto

/-- Rows that can be told apart are not held by one row. -/
theorem not_holds {other existing : Row}
    (hne : layer.keyOf primaryKey row ≠ layer.keyOf primaryKey other)
    (hheld : holds primaryKey layer columns row existing) :
    ¬ holds primaryKey layer columns other existing := by
  intro hheld'
  obtain ⟨-, -, hkey⟩ := holds_iff.mp hheld
  obtain ⟨-, -, hkey'⟩ := holds_iff.mp hheld'
  exact hne (hkey.symm.trans hkey')

/-- The value of a row of the layer in each of its columns, with the position of the
column in the base. -/
theorem mem_zip_map {i : Nat} (hi : i < layer.columns.length)
    (hi' : i < row.values.length) :
    (columnAt columns layer.columns[i], row.values[i]) ∈
      (layer.columns.map (columnAt columns)).zip row.values := by
  refine List.mem_of_getElem? (i := i) ?_
  rw [List.getElem?_zip_eq_some, List.getElem?_map, List.getElem?_eq_getElem hi]
  exact ⟨rfl, List.getElem?_eq_getElem hi'⟩

/-- Where a row of the layer was written, all of its values can be read. -/
theorem HasKey.getElem?_fill (h : layer.HasKey primaryKey)
    (hfound : ∀ column ∈ layer.columns, Found columns column)
    (hrow : row.values.length = layer.columns.length) {existing : Row}
    (hwidth : existing.values.length = columns.length) {w : Nat × Option String}
    (hw : w ∈ (layer.columns.map (columnAt columns)).zip row.values) :
    (fill layer columns row existing).values[w.1]? = some w.2 := by
  have hfst : (((layer.columns.map (columnAt columns)).zip row.values).map Prod.fst) =
      layer.columns.map (columnAt columns) :=
    List.map_fst_zip (Nat.le_of_eq (by rw [List.length_map, hrow]))
  refine getElem?_foldl_set ?_ hw ?_
  · rw [hfst]
    exact nodup_map_columnAt h.columns hfound
  · obtain ⟨column, hcolumn, hposition⟩ := List.mem_map.mp (hfst ▸ List.mem_map_of_mem hw)
    rw [hwidth, ← hposition]
    exact (hfound column hcolumn).columnAt_lt

theorem length_fill (layer : RowBlock) (columns : List String) (row existing : Row) :
    (fill layer columns row existing).values.length = existing.values.length :=
  length_write _ row existing

/-- Where a row of the layer was written, a name of one of its columns finds its value. -/
theorem HasKey.value_fill (h : layer.HasKey primaryKey)
    (hfound : ∀ column ∈ layer.columns, Found columns column)
    (hrow : row.values.length = layer.columns.length) {existing : Row}
    (hwidth : existing.values.length = columns.length) {name : String}
    (hname : Found layer.columns name) :
    (fill layer columns row existing).value (columnAt columns name) =
      row.value (columnAt layer.columns name) := by
  have hlt := hname.columnAt_lt
  have hlt' : columnAt layer.columns name < row.values.length := by rwa [hrow]
  have hread := h.getElem?_fill hfound hrow hwidth (mem_zip_map hlt hlt')
  rw [columnAt_congr (fold_getElem_columnAt hlt)] at hread
  rw [value_of_getElem? hread, value_of_getElem? (List.getElem?_eq_getElem hlt')]

/-- A row of the layer written over a row gives it its key. -/
theorem HasKey.keyAt_fill (h : layer.HasKey primaryKey)
    (hfound : ∀ column ∈ layer.columns, Found columns column)
    (hrow : row.values.length = layer.columns.length) {existing : Row}
    (hwidth : existing.values.length = columns.length) :
    keyAt primaryKey columns (fill layer columns row existing) = layer.keyOf primaryKey row :=
  List.map_congr_left fun name hname => h.value_fill hfound hrow hwidth (h.found name hname)

/-- A row of the layer written over a row is found there by its key. -/
theorem Keyed.holds_fill (h : layer.Keyed primaryKey)
    (hfound : ∀ column ∈ layer.columns, Found columns column) (hrow : row ∈ layer.rows)
    {existing : Row} (hwidth : existing.values.length = columns.length) :
    holds primaryKey layer columns row (fill layer columns row existing) :=
  holds_iff.mpr ⟨(length_fill layer columns row existing).trans hwidth, h.declared row hrow,
    h.hasKey.keyAt_fill hfound (h.wellFormed row hrow) hwidth⟩

/-- A row of the layer written over a row once is as good as twice. -/
theorem HasKey.fill_fill (h : layer.HasKey primaryKey)
    (hfound : ∀ column ∈ layer.columns, Found columns column)
    (hrow : row.values.length = layer.columns.length) {existing : Row}
    (hwidth : existing.values.length = columns.length) :
    fill layer columns row (fill layer columns row existing) = fill layer columns row existing := by
  have hvalues := foldl_set_eq_self fun w hw => h.getElem?_fill hfound hrow hwidth hw
  show Row.mk _ _ = Row.mk _ _
  rw [Row.mk.injEq]
  exact ⟨hvalues, rfl⟩

end HasKey

/-! ## All rows of a layer -/

section Layer

variable {primaryKey : List String} {layer : RowBlock} {columns : List String}

/-- A row of the layer lands among rows over the columns of a base. -/
def landKeyed (primaryKey : List String) (layer : RowBlock) (columns : List String)
    (rows : List Row) (row : Row) : List Row :=
  upsert (holds primaryKey layer columns row) (fill layer columns row)
    (pad columns.length ⟨[], false⟩) rows

/-- The row of the layer has settled among the rows. -/
def Lies (primaryKey : List String) (layer : RowBlock) (columns : List String)
    (rows : List Row) (row : Row) : Prop :=
  Settled (holds primaryKey layer columns row) (fill layer columns row) rows

theorem HasKey.rows_overlay (h : layer.HasKey primaryKey) (base : RowBlock) :
    (overlay primaryKey base layer).rows =
      layer.rows.foldl (landKeyed primaryKey layer (align base.columns layer.columns).columns)
        (base.padded (align base.columns layer.columns).columns.length) := by
  show layer.rows.foldl _ _ = _
  rw [positions_align, keyPositions_of_found h.key_ne_nil h.found]
  refine List.foldl_ext _ _ _ fun rows row hrow => ?_
  rw [landRow, if_pos (h.wellFormed row hrow)]
  rfl

theorem Keyed.lies_landKeyed (h : layer.Keyed primaryKey)
    (hfound : ∀ column ∈ layer.columns, Found columns column) {row : Row}
    (hrow : row ∈ layer.rows) (rows : List Row) :
    Lies primaryKey layer columns (landKeyed primaryKey layer columns rows row) row := by
  have hfresh : (pad columns.length ⟨[], false⟩).values.length = columns.length :=
    length_pad (Nat.zero_le _)
  refine settled_upsert (fun existing hheld => ?_) (fun existing hheld => ?_) ?_ ?_
  · exact h.holds_fill hfound hrow (holds_iff.mp hheld).1
  · exact h.hasKey.fill_fill hfound (h.wellFormed row hrow) (holds_iff.mp hheld).1
  · exact h.holds_fill hfound hrow hfresh
  · exact h.hasKey.fill_fill hfound (h.wellFormed row hrow) hfresh

theorem Keyed.lies_landKeyed_other (h : layer.Keyed primaryKey)
    (hfound : ∀ column ∈ layer.columns, Found columns column) {row other : Row}
    (hother : other ∈ layer.rows)
    (hne : layer.keyOf primaryKey row ≠ layer.keyOf primaryKey other) {rows : List Row}
    (hlies : Lies primaryKey layer columns rows row) :
    Lies primaryKey layer columns (landKeyed primaryKey layer columns rows other) row := by
  refine Settled.upsert_other hlies (fun existing hheld => ?_) (fun existing hheld => ?_)
  · exact not_holds hne hheld
  · exact h.holds_fill hfound hother (holds_iff.mp hheld).1

/-- What has settled stays so while any number of rows with other keys land. -/
theorem Keyed.lies_foldl_other (h : layer.Keyed primaryKey)
    (hfound : ∀ column ∈ layer.columns, Found columns column) {row : Row}
    {landing : List Row} (hmem : ∀ a ∈ landing, a ∈ layer.rows)
    (hne : ∀ a ∈ landing, layer.keyOf primaryKey row ≠ layer.keyOf primaryKey a)
    {rows : List Row} (hlies : Lies primaryKey layer columns rows row) :
    Lies primaryKey layer columns
      (landing.foldl (landKeyed primaryKey layer columns) rows) row := by
  induction landing generalizing rows with
  | nil => exact hlies
  | cons first landing ih =>
    obtain ⟨hfirst, hrest⟩ := List.forall_mem_cons.mp hmem
    obtain ⟨hnefirst, hnerest⟩ := List.forall_mem_cons.mp hne
    exact ih hrest hnerest (h.lies_landKeyed_other hfound hfirst hnefirst hlies)

/-- **Every row that lands has settled in the end.** -/
theorem Keyed.lies_foldl (h : layer.Keyed primaryKey)
    (hfound : ∀ column ∈ layer.columns, Found columns column) {landing : List Row}
    (hmem : ∀ a ∈ landing, a ∈ layer.rows)
    (hdistinct : landing.Pairwise fun a b => layer.keyOf primaryKey a ≠ layer.keyOf primaryKey b)
    (rows : List Row) :
    ∀ row ∈ landing, Lies primaryKey layer columns
      (landing.foldl (landKeyed primaryKey layer columns) rows) row := by
  induction landing generalizing rows with
  | nil => exact fun row hrow => absurd hrow List.not_mem_nil
  | cons first landing ih =>
    obtain ⟨hfirst, hrest⟩ := List.forall_mem_cons.mp hmem
    obtain ⟨hapart, hpairs⟩ := List.pairwise_cons.mp hdistinct
    intro row hrow
    rw [List.foldl_cons]
    rcases List.mem_cons.mp hrow with rfl | hrow
    · -- it settles as it lands, and the rows that follow have other keys
      exact h.lies_foldl_other hfound hrest hapart (h.lies_landKeyed hfound hfirst rows)
    · exact ih hrest hpairs _ row hrow

theorem foldl_landKeyed_of_lies {landing rows : List Row}
    (h : ∀ row ∈ landing, Lies primaryKey layer columns rows row) :
    landing.foldl (landKeyed primaryKey layer columns) rows = rows := by
  induction landing with
  | nil => rfl
  | cons row landing ih =>
    obtain ⟨hrow, hrest⟩ := List.forall_mem_cons.mp h
    rw [List.foldl_cons, landKeyed, hrow.upsert_eq, ih hrest]

/-- The rows of a layer lie among themselves already. -/
theorem Keyed.lies_self (h : layer.Keyed primaryKey) {row : Row} (hrow : row ∈ layer.rows) :
    Lies primaryKey layer layer.columns layer.rows row := by
  have hself : ∀ a ∈ layer.rows, holds primaryKey layer layer.columns a a := fun a ha =>
    holds_iff.mpr ⟨h.wellFormed a ha, h.declared a ha, rfl⟩
  have hfill : fill layer layer.columns row row = row := by
    have hvalues : ∀ w ∈ (layer.columns.map (columnAt layer.columns)).zip row.values,
        row.values[w.1]? = some w.2 := by
      intro w hw
      obtain ⟨i, hi, rfl⟩ := List.mem_iff_getElem.mp hw
      rw [List.length_zip, List.length_map, Nat.lt_min] at hi
      rw [List.getElem_zip, List.getElem_map, columnAt_getElem h.columns hi.1,
        List.getElem?_eq_getElem hi.2]
    show Row.mk _ _ = Row.mk _ _
    rw [Row.mk.injEq]
    exact ⟨foldl_set_eq_self hvalues, rfl⟩
  -- landing goes through the rows of the layer, so that the induction is on what is left of them
  suffices hsuffix : ∀ rest : List Row, rest <:+ layer.rows → row ∈ rest →
      Lies primaryKey layer layer.columns rest row from
    hsuffix layer.rows (List.suffix_refl _) hrow
  intro rest
  induction rest with
  | nil => exact fun _ hmem => absurd hmem List.not_mem_nil
  | cons a rest ih =>
    intro hsuffix hmem
    have ha : a ∈ layer.rows := hsuffix.mem List.mem_cons_self
    unfold Lies Settled
    rw [Siblings.modifyFirst?]
    rcases List.mem_cons.mp hmem with rfl | hmem
    · rw [if_pos (hself row hrow), hfill]
    · -- a row before it has another key
      have hne := (List.pairwise_cons.mp (h.distinct.sublist hsuffix.sublist)).1 row hmem
      have hlies := ih ((List.suffix_cons a rest).trans hsuffix) hmem
      rw [if_neg (not_holds hne (hself a ha)), hlies, Option.map_some]

end Layer

/-! ## Blocks -/

theorem padded_self (block : RowBlock) : block.padded block.columns.length = block.rows := by
  have hpad : ∀ row ∈ block.rows, (if row.values.length = block.columns.length then
      pad block.columns.length row else row) = row := by
    intro row _
    split
    next h => rw [pad, h, Nat.sub_self, List.replicate_zero, List.append_nil]
    next => rfl
  rw [padded, List.map_congr_left hpad, List.map_id']

variable {primaryKey : List String} {layer : RowBlock}

/-- **A block laid over a base twice.** -/
theorem overlay_again (base : RowBlock) (h : layer.rows ≠ [] → layer.Keyed primaryKey) :
    overlay primaryKey (overlay primaryKey base layer) layer =
      overlay primaryKey base layer := by
  have hcolumns : (align (overlay primaryKey base layer).columns layer.columns).columns =
      (overlay primaryKey base layer).columns := by
    show (align (align base.columns layer.columns).columns layer.columns).columns = _
    rw [align_again]
    rfl
  have hrows : (overlay primaryKey (overlay primaryKey base layer) layer).rows =
      (overlay primaryKey base layer).rows := by
    by_cases hnil : layer.rows = []
    · -- nothing lands, and the rows have the width already
      show layer.rows.foldl _ _ = _
      rw [hnil, List.foldl_nil, hcolumns, padded_self]
    · have hkeyed := h hnil
      rw [hkeyed.hasKey.rows_overlay, hcolumns, padded_self]
      refine foldl_landKeyed_of_lies fun row hrow => ?_
      rw [hkeyed.hasKey.rows_overlay base]
      exact hkeyed.lies_foldl (fun column hcolumn => found_align base.columns hcolumn)
        (fun _ ha => ha) hkeyed.distinct _ row hrow
  show RowBlock.mk _ _ = RowBlock.mk _ _
  rw [RowBlock.mk.injEq]
  exact ⟨hcolumns, hrows⟩

/-- A block laid over itself. -/
theorem overlay_self (h : layer.rows ≠ [] → layer.Keyed primaryKey) :
    overlay primaryKey layer layer = layer := by
  have hcolumns : (align layer.columns layer.columns).columns = layer.columns := by
    rw [align_self]
  have hrows : (overlay primaryKey layer layer).rows = layer.rows := by
    by_cases hnil : layer.rows = []
    · show layer.rows.foldl _ _ = _
      rw [hnil, List.foldl_nil, hcolumns, padded_self, hnil]
    · have hkeyed := h hnil
      rw [hkeyed.hasKey.rows_overlay, hcolumns, padded_self]
      exact foldl_landKeyed_of_lies fun row hrow => hkeyed.lies_self hrow
  obtain ⟨columns, rows⟩ := layer
  show RowBlock.mk _ _ = RowBlock.mk _ _
  rw [RowBlock.mk.injEq]
  exact ⟨hcolumns, hrows⟩

theorem overlayOption_again (base : Option RowBlock) {layer : Option RowBlock}
    (h : ∀ block ∈ layer, block.rows ≠ [] → block.Keyed primaryKey) :
    overlayOption primaryKey (overlayOption primaryKey base layer) layer =
      overlayOption primaryKey base layer := by
  cases layer with
  | none => cases base <;> rfl
  | some l =>
    cases base with
    | none => exact congrArg some (overlay_self (h l rfl))
    | some b => exact congrArg some (overlay_again b (h l rfl))

end RowBlock

end LayeredSchema
