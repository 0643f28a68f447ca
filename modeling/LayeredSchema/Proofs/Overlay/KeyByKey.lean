import LayeredSchema.Proofs.Overlay.Settled

/-!
# Rows that land, key by key

A row that lands is written over the first row with its key, and one that is added is there for
the rows after it. So what many rows come to is not seen row by row. It is seen key by key:
landing commutes with looking at some of the keys alone (`HasKey.filter_foldl_landKeyed`),
because a row has the key of what is written over it. And it is seen in two parts: the rows
that were there take what has one of their keys, and all else makes up rows of its own
(`HasKey.foldl_landKeyed_append`).

What is written over a row more than once shows the last of it
(`HasKey.written_foldl_fill`).
-/

namespace LayeredSchema.RowBlock

/-! ## Written rows -/

/-- The new row shows the row of the layer over the old one: in the columns of the layer it
has the values of that row, in all others it has those of the old one. -/
structure Written (layer : RowBlock) (columns : List String) (row old new : Row) : Prop where
  deleted : new.deleted = row.deleted
  value : ∀ (i : Nat) (_ : i < columns.length), new.value i =
    if Found layer.columns columns[i] then row.value (columnAt layer.columns columns[i])
    else old.value i

/-- The rows have one value for each column. -/
def Wide (columns : List String) (rows : List Row) : Prop :=
  ∀ row ∈ rows, row.values.length = columns.length

section Written

variable {primaryKey columns : List String} {layer : RowBlock} {row other old new newer : Row}

theorem Written.trans (h : Written layer columns row old new)
    (h' : Written layer columns other new newer) : Written layer columns other old newer where
  deleted := h'.deleted
  value i hi := by
    rw [h'.value i hi]
    split
    next => rfl
    next hfound => rw [h.value i hi, if_neg hfound]

/-- What a row shows is not changed by what stands behind its end. -/
theorem Written.of_value (hvalue : ∀ i, old.value i = other.value i)
    (h : Written layer columns row old new) : Written layer columns row other new where
  deleted := h.deleted
  value i hi := by rw [h.value i hi, hvalue]

theorem HasKey.written_fill (h : layer.HasKey primaryKey)
    (hcolumns : columns.Pairwise fun a b => Name.fold a ≠ Name.fold b)
    (hfound : ∀ column ∈ layer.columns, Found columns column)
    (hrow : row.values.length = layer.columns.length)
    (hold : old.values.length = columns.length) :
    Written layer columns row old (fill layer columns row old) where
  deleted := rfl
  value i hi := by
    split
    next hin =>
      have hread := h.value_fill hfound hrow hold hin
      rwa [columnAt_getElem hcolumns hi] at hread
    next hout =>
      -- no column of the layer is written there
      have hnot : i ∉ ((layer.columns.map (columnAt columns)).zip row.values).map Prod.fst := by
        rw [List.map_fst_zip (Nat.le_of_eq (by rw [List.length_map, hrow]))]
        intro hmem
        obtain ⟨column, hcolumn, rfl⟩ := List.mem_map.mp hmem
        exact hout ⟨column, hcolumn, (fold_getElem_columnAt hi).symm⟩
      show ((List.foldl _ old.values _)[i]?).join = _
      rw [getElem?_foldl_set_of_not_mem hnot]
      rfl

/-- **The last one shows.** -/
theorem HasKey.written_foldl_fill (h : layer.HasKey primaryKey)
    (hcolumns : columns.Pairwise fun a b => Name.fold a ≠ Name.fold b)
    (hfound : ∀ column ∈ layer.columns, Found columns column) {landing : List Row}
    (hlanding : Wide layer.columns landing) (hold : old.values.length = columns.length)
    (hlast : landing.getLast? = some row) :
    Written layer columns row old
      (landing.foldl (fun existing row => fill layer columns row existing) old) := by
  induction landing generalizing old with
  | nil => exact absurd hlast (by simp)
  | cons first rest ih =>
    obtain ⟨hfirst, hrest⟩ := List.forall_mem_cons.mp hlanding
    have hwritten := h.written_fill hcolumns hfound hfirst hold
    rw [List.foldl_cons]
    cases rest with
    | nil =>
      obtain rfl : first = row := by simpa using hlast
      exact hwritten
    | cons second rest =>
      rw [List.getLast?_cons_cons] at hlast
      exact hwritten.trans (ih hrest ((length_fill layer columns first old).trans hold) hlast)

end Written

/-! ## Rows of the layer that land -/

/-- An element that stands in the first part is found there. -/
theorem idxOf?_append_iff {κ : Type} [BEq κ] {front back : List κ} {key : κ} {i : Nat}
    (hi : i < front.length) :
    (front ++ back).idxOf? key = some i ↔ front.idxOf? key = some i := by
  unfold List.idxOf?
  rw [List.findIdx?_append]
  cases front.findIdx? fun other => other == key with
  | some j => simp
  | none =>
    simp only [Option.none_or, Option.map_eq_some_iff, reduceCtorEq, iff_false, not_exists,
      not_and]
    omega

/-- The row has a key without NULL, and one of the rows has that key. -/
def Held (primaryKey : List String) (layer : RowBlock) (columns : List String) (rows : List Row)
    (row : Row) : Prop :=
  none ∉ layer.keyOf primaryKey row ∧
    layer.keyOf primaryKey row ∈ rows.map (keyAt primaryKey columns)

instance (primaryKey : List String) (layer : RowBlock) (columns : List String)
    (rows : List Row) (row : Row) : Decidable (Held primaryKey layer columns rows row) :=
  inferInstanceAs (Decidable (_ ∧ _))

section Landing

variable {primaryKey columns : List String} {layer : RowBlock} {rows added landing : List Row}
  {row existing : Row}

theorem holds_iff_of_wide (hwidth : existing.values.length = columns.length) :
    holds primaryKey layer columns row existing ↔
      none ∉ layer.keyOf primaryKey row ∧
        keyAt primaryKey columns existing = layer.keyOf primaryKey row := by
  rw [holds_iff, and_iff_right hwidth]

theorem any_holds_iff (hrows : Wide columns rows) :
    rows.any (holds primaryKey layer columns row) ↔
      Held primaryKey layer columns rows row := by
  rw [List.any_eq_true, Held, List.mem_map]
  constructor
  · intro h
    obtain ⟨existing, hmem, hheld⟩ := h
    obtain ⟨hnull, hkey⟩ := (holds_iff_of_wide (hrows existing hmem)).mp hheld
    exact ⟨hnull, existing, hmem, hkey⟩
  · intro h
    obtain ⟨hnull, existing, hmem, hkey⟩ := h
    exact ⟨existing, hmem, (holds_iff_of_wide (hrows existing hmem)).mpr ⟨hnull, hkey⟩⟩

/-- A row is written over the first one that has its key. -/
theorem findIdx?_holds_iff (hrows : Wide columns rows) {i : Nat} :
    rows.findIdx? (holds primaryKey layer columns row) = some i ↔
      none ∉ layer.keyOf primaryKey row ∧
        (rows.map (keyAt primaryKey columns)).idxOf? (layer.keyOf primaryKey row) = some i := by
  rw [List.findIdx?_eq_some_iff_getElem, List.idxOf?_eq_some_iff]
  simp only [List.length_map, List.getElem_map]
  constructor
  · intro h
    obtain ⟨hi, hheld, hbefore⟩ := h
    obtain ⟨hnull, hkey⟩ := (holds_iff_of_wide (hrows _ (List.getElem_mem hi))).mp hheld
    refine ⟨hnull, hi, hkey, fun j hj hkeyj => hbefore j hj ?_⟩
    exact (holds_iff_of_wide (hrows _ (List.getElem_mem _))).mpr ⟨hnull, hkeyj⟩
  · intro h
    obtain ⟨hnull, hi, hkey, hbefore⟩ := h
    refine ⟨hi, (holds_iff_of_wide (hrows _ (List.getElem_mem hi))).mpr ⟨hnull, hkey⟩, ?_⟩
    intro j hj hheld
    exact hbefore j hj ((holds_iff_of_wide (hrows _ (List.getElem_mem _))).mp hheld).2

theorem wide_landKeyed (hrows : Wide columns rows) :
    Wide columns (landKeyed primaryKey layer columns rows row) :=
  forall_upsert hrows (fun existing hwidth => (length_fill layer columns row existing).trans hwidth)
    (length_pad (Nat.zero_le _))

theorem landKeyed_append (hrows : Wide columns rows) :
    landKeyed primaryKey layer columns (rows ++ added) row =
      if Held primaryKey layer columns rows row then
        landKeyed primaryKey layer columns rows row ++ added
      else rows ++ landKeyed primaryKey layer columns added row := by
  unfold landKeyed
  rw [upsert_append]
  simp only [any_holds_iff hrows]

/-- Rows with NULL in their keys are added one by one. -/
theorem foldl_landKeyed_null (hnull : ∀ row ∈ landing, none ∈ layer.keyOf primaryKey row) :
    landing.foldl (landKeyed primaryKey layer columns) rows =
      rows ++ landing.map fun row => fill layer columns row (pad columns.length ⟨[], false⟩) := by
  induction landing generalizing rows with
  | nil => exact (List.append_nil rows).symm
  | cons row landing ih =>
    obtain ⟨hrow, hrest⟩ := List.forall_mem_cons.mp hnull
    have hnone : ∀ existing ∈ rows, ¬ holds primaryKey layer columns row existing :=
      fun existing _ hheld => (holds_iff.mp hheld).2.1 hrow
    rw [List.foldl_cons, ih hrest, landKeyed, upsert_of_none hnone, List.append_assoc,
      List.map_cons, List.singleton_append]

section HasKey

variable (h : layer.HasKey primaryKey) (hfound : ∀ column ∈ layer.columns, Found columns column)
  (hlanding : Wide layer.columns landing) (hrow : row.values.length = layer.columns.length)
  (hrows : Wide columns rows)

include h hfound

section OneRow

include hrow

theorem HasKey.keyAt_fresh :
    keyAt primaryKey columns (fill layer columns row (pad columns.length ⟨[], false⟩)) =
      layer.keyOf primaryKey row :=
  h.keyAt_fill hfound hrow (length_pad (Nat.zero_le _))

include hrows

/-- A row that lands has the key of a row that was there, or brings a new one. -/
theorem HasKey.map_keyAt_landKeyed :
    (landKeyed primaryKey layer columns rows row).map (keyAt primaryKey columns) =
      if Held primaryKey layer columns rows row then rows.map (keyAt primaryKey columns)
      else rows.map (keyAt primaryKey columns) ++ [layer.keyOf primaryKey row] := by
  have hkey : ∀ existing ∈ rows, holds primaryKey layer columns row existing →
      keyAt primaryKey columns (fill layer columns row existing) =
        keyAt primaryKey columns existing := by
    intro existing hmem hheld
    rw [h.keyAt_fill hfound hrow (hrows existing hmem), (holds_iff.mp hheld).2.2]
  unfold landKeyed
  rw [map_upsert hkey, h.keyAt_fresh hfound hrow]
  simp only [any_holds_iff hrows]

/-- Landing, as far as rows with some of the keys are concerned. -/
theorem HasKey.filter_landKeyed (Q : List (Option String) → Bool) :
    (landKeyed primaryKey layer columns rows row).filter (fun r => Q (keyAt primaryKey columns r)) =
      if Q (layer.keyOf primaryKey row) then
        landKeyed primaryKey layer columns
          (rows.filter fun r => Q (keyAt primaryKey columns r)) row
      else rows.filter fun r => Q (keyAt primaryKey columns r) := by
  have hkeys : ∀ existing ∈ rows, holds primaryKey layer columns row existing →
      keyAt primaryKey columns existing = layer.keyOf primaryKey row ∧
        keyAt primaryKey columns (fill layer columns row existing) =
          layer.keyOf primaryKey row := fun existing hmem hheld =>
    ⟨(holds_iff.mp hheld).2.2, h.keyAt_fill hfound hrow (hrows existing hmem)⟩
  have hfresh := h.keyAt_fresh hfound hrow
  unfold landKeyed
  split
  next hQ =>
    refine filter_upsert (fun existing hmem hheld => ?_) (by rw [hfresh]; exact hQ)
    rw [(hkeys existing hmem hheld).1, (hkeys existing hmem hheld).2]
    exact ⟨hQ, hQ⟩
  next hQ =>
    refine filter_upsert_other (fun existing hmem hheld => ?_) (by rw [hfresh]; exact hQ)
    rw [(hkeys existing hmem hheld).1, (hkeys existing hmem hheld).2]
    exact ⟨hQ, hQ⟩

end OneRow

include hlanding

/-- **Key by key.** What has some of the keys in the end comes from the rows with those keys
alone. -/
theorem HasKey.filter_foldl_landKeyed (Q : List (Option String) → Bool)
    (hrows : Wide columns rows) :
    (landing.foldl (landKeyed primaryKey layer columns) rows).filter
        (fun r => Q (keyAt primaryKey columns r)) =
      (landing.filter fun r => Q (layer.keyOf primaryKey r)).foldl
        (landKeyed primaryKey layer columns)
        (rows.filter fun r => Q (keyAt primaryKey columns r)) := by
  induction landing generalizing rows with
  | nil => rfl
  | cons row landing ih =>
    obtain ⟨hrow, hrest⟩ := List.forall_mem_cons.mp hlanding
    rw [List.foldl_cons, ih hrest (wide_landKeyed hrows),
      h.filter_landKeyed hfound hrow hrows Q, List.filter_cons]
    split <;> rfl

/-- **In two parts.** The rows in front take what has one of their keys, and all else lands
behind them. -/
theorem HasKey.foldl_landKeyed_append (hrows : Wide columns rows) (added : List Row) :
    landing.foldl (landKeyed primaryKey layer columns) (rows ++ added) =
      (landing.filter fun row => Held primaryKey layer columns rows row).foldl
          (landKeyed primaryKey layer columns) rows ++
        (landing.filter fun row => ¬ Held primaryKey layer columns rows row).foldl
          (landKeyed primaryKey layer columns) added := by
  induction landing generalizing rows added with
  | nil => rfl
  | cons row landing ih =>
    obtain ⟨hrow, hrest⟩ := List.forall_mem_cons.mp hlanding
    rw [List.foldl_cons, landKeyed_append hrows]
    by_cases hheld : Held primaryKey layer columns rows row
    · -- the keys in front stay what they were
      have hkeys : (landKeyed primaryKey layer columns rows row).map (keyAt primaryKey columns) =
          rows.map (keyAt primaryKey columns) := by
        rw [h.map_keyAt_landKeyed hfound hrow hrows, if_pos hheld]
      have hsame : ∀ other, Held primaryKey layer columns
          (landKeyed primaryKey layer columns rows row) other ↔
            Held primaryKey layer columns rows other := by
        intro other
        rw [Held, hkeys, Held]
      rw [if_pos hheld, ih hrest (wide_landKeyed hrows) added,
        List.filter_cons_of_pos (by simpa using hheld),
        List.filter_cons_of_neg (by simpa using hheld), List.foldl_cons]
      simp only [hsame]
    · rw [if_neg hheld, ih hrest hrows, List.filter_cons_of_neg (by simpa using hheld),
        List.filter_cons_of_pos (by simpa using hheld), List.foldl_cons]

/-- No key comes from anywhere else. -/
theorem HasKey.keyAt_of_mem_foldl_landKeyed (hrows : Wide columns rows)
    (hmem : existing ∈ landing.foldl (landKeyed primaryKey layer columns) rows) :
    keyAt primaryKey columns existing ∈ rows.map (keyAt primaryKey columns) ∨
      keyAt primaryKey columns existing ∈ landing.map (layer.keyOf primaryKey) := by
  induction landing generalizing rows with
  | nil => exact .inl (List.mem_map_of_mem hmem)
  | cons row landing ih =>
    obtain ⟨hrow, hrest⟩ := List.forall_mem_cons.mp hlanding
    rw [List.map_cons, List.mem_cons]
    rcases ih hrest (wide_landKeyed hrows) hmem with hkey | hkey
    · rw [h.map_keyAt_landKeyed hfound hrow hrows] at hkey
      split at hkey
      next => exact .inl hkey
      next =>
        rcases List.mem_append.mp hkey with hkey | hkey
        · exact .inl hkey
        · exact .inr (.inl (List.mem_singleton.mp hkey))
    · exact .inr (.inr hkey)

/-- Rows with keys that are there change none of the keys. -/
theorem HasKey.map_keyAt_foldl_held (hrows : Wide columns rows)
    (hheld : ∀ row ∈ landing, Held primaryKey layer columns rows row) :
    (landing.foldl (landKeyed primaryKey layer columns) rows).map (keyAt primaryKey columns) =
      rows.map (keyAt primaryKey columns) := by
  induction landing generalizing rows with
  | nil => rfl
  | cons row landing ih =>
    obtain ⟨hrow, hrest⟩ := List.forall_mem_cons.mp hlanding
    obtain ⟨hrowheld, hheld⟩ := List.forall_mem_cons.mp hheld
    have hkeys := h.map_keyAt_landKeyed hfound hrow hrows
    rw [if_pos hrowheld] at hkeys
    rw [List.foldl_cons, ih hrest (wide_landKeyed hrows) fun other hother => ?_, hkeys]
    rw [Held, hkeys]
    exact hheld other hother

/-- What has none of the keys that are there makes up rows of its own. -/
theorem HasKey.drop_foldl_landKeyed (hrows : Wide columns rows) :
    (landing.foldl (landKeyed primaryKey layer columns) rows).drop rows.length =
      (landing.filter fun row => ¬ Held primaryKey layer columns rows row).foldl
        (landKeyed primaryKey layer columns) [] := by
  have hparts := h.foldl_landKeyed_append hfound hlanding hrows []
  have hfront : ((landing.filter fun row => Held primaryKey layer columns rows row).foldl
        (landKeyed primaryKey layer columns) rows).map (keyAt primaryKey columns) =
      rows.map (keyAt primaryKey columns) :=
    h.map_keyAt_foldl_held hfound (fun row hrow => hlanding row (List.mem_of_mem_filter hrow))
      hrows fun row hrow => of_decide_eq_true (List.mem_filter.mp hrow).2
  have hlength := congrArg List.length hfront
  rw [List.length_map, List.length_map] at hlength
  rw [List.append_nil] at hparts
  rw [hparts, ← hlength, List.drop_left]

/-- **In place.** A row that was there has written over it what has its key, if it is the first
with that key. -/
theorem HasKey.getElem?_foldl_landKeyed (hrows : Wide columns rows) {i : Nat}
    (hi : rows[i]? = some existing) :
    (landing.foldl (landKeyed primaryKey layer columns) rows)[i]? =
      some ((landing.filter fun row => none ∉ layer.keyOf primaryKey row ∧
        (rows.map (keyAt primaryKey columns)).idxOf? (layer.keyOf primaryKey row) = some i).foldl
          (fun existing row => fill layer columns row existing) existing) := by
  induction landing generalizing rows existing with
  | nil => exact hi
  | cons row landing ih =>
    obtain ⟨hrow, hrest⟩ := List.forall_mem_cons.mp hlanding
    have hlt : i < (rows.map (keyAt primaryKey columns)).length := by
      rw [List.length_map]
      exact (List.getElem?_eq_some_iff.mp hi).1
    have hfirst : ∀ key, ((landKeyed primaryKey layer columns rows row).map
          (keyAt primaryKey columns)).idxOf? key = some i ↔
        (rows.map (keyAt primaryKey columns)).idxOf? key = some i := by
      intro key
      rw [h.map_keyAt_landKeyed hfound hrow hrows]
      split
      next => rfl
      next => exact idxOf?_append_iff hlt
    rw [List.foldl_cons, ih hrest (wide_landKeyed hrows) (getElem?_upsert hi)]
    simp only [hfirst, findIdx?_holds_iff hrows, List.filter_cons, decide_eq_true_eq]
    split <;> rfl

/-- Rows of one key without NULL are written over one and the same row. -/
theorem HasKey.foldl_landKeyed_one {key : List (Option String)} (hnull : none ∉ key)
    (hsame : ∀ row ∈ landing, layer.keyOf primaryKey row = key)
    (hwidth : existing.values.length = columns.length)
    (hkey : keyAt primaryKey columns existing = key) :
    landing.foldl (landKeyed primaryKey layer columns) [existing] =
      [landing.foldl (fun existing row => fill layer columns row existing) existing] := by
  induction landing generalizing existing with
  | nil => rfl
  | cons row landing ih =>
    obtain ⟨hrow, hrest⟩ := List.forall_mem_cons.mp hlanding
    obtain ⟨hrowkey, hsame⟩ := List.forall_mem_cons.mp hsame
    have hheld : holds primaryKey layer columns row existing :=
      (holds_iff_of_wide hwidth).mpr ⟨hrowkey ▸ hnull, hkey.trans hrowkey.symm⟩
    have hone : landKeyed primaryKey layer columns [existing] row =
        [fill layer columns row existing] := by
      rw [landKeyed, upsert_cons, if_pos hheld]
    rw [List.foldl_cons, List.foldl_cons, hone]
    exact ih hrest hsame ((length_fill layer columns row existing).trans hwidth)
      ((h.keyAt_fill hfound hrow hwidth).trans hrowkey)

/-- Rows of one key without NULL make up one row of their own. -/
theorem HasKey.foldl_landKeyed_nil {key : List (Option String)} (hnull : none ∉ key)
    (hsame : ∀ row ∈ landing, layer.keyOf primaryKey row = key) (hne : landing ≠ []) :
    landing.foldl (landKeyed primaryKey layer columns) [] =
      [landing.foldl (fun existing row => fill layer columns row existing)
        (pad columns.length ⟨[], false⟩)] := by
  cases landing with
  | nil => exact absurd rfl hne
  | cons row landing =>
    obtain ⟨hrow, hrest⟩ := List.forall_mem_cons.mp hlanding
    obtain ⟨hrowkey, hsame⟩ := List.forall_mem_cons.mp hsame
    exact h.foldl_landKeyed_one hfound hrest hnull hsame
      ((length_fill layer columns row _).trans (length_pad (Nat.zero_le _)))
      ((h.keyAt_fresh hfound hrow).trans hrowkey)

/-- Keys without NULL that differ are not brought a second time. -/
theorem HasKey.nodup_foldl_landKeyed
    (hnull : ∀ row ∈ landing, none ∉ layer.keyOf primaryKey row) (hrows : Wide columns rows)
    (hnodup : (rows.map (keyAt primaryKey columns)).Nodup) :
    ((landing.foldl (landKeyed primaryKey layer columns) rows).map
      (keyAt primaryKey columns)).Nodup := by
  induction landing generalizing rows with
  | nil => exact hnodup
  | cons row landing ih =>
    obtain ⟨hrow, hrest⟩ := List.forall_mem_cons.mp hlanding
    obtain ⟨hrownull, hnull⟩ := List.forall_mem_cons.mp hnull
    refine ih hrest hnull (wide_landKeyed hrows) ?_
    rw [h.map_keyAt_landKeyed hfound hrow hrows]
    split
    next => exact hnodup
    next hheld =>
      have hnew : layer.keyOf primaryKey row ∉ rows.map (keyAt primaryKey columns) :=
        fun hmem => hheld ⟨hrownull, hmem⟩
      exact List.nodup_append.mpr ⟨hnodup, List.nodup_singleton _, fun a ha b hb heq =>
        hnew (by rw [← List.mem_singleton.mp hb, ← heq]; exact ha)⟩

end HasKey

end Landing

end LayeredSchema.RowBlock
