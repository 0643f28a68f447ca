import LayeredSchema.Overlay.Rows
import Mathlib.Data.List.Nodup

/-!
# Where the columns of a layer stand

Laying a row block over another one starts by finding the place of each column
of the layer. `align` does so column by column while the columns grow. This file
says what comes out in terms of the result alone: the columns of the base stay
in front (`columns_prefix_align`), every column of the layer is found
(`found_align`), and its position is where a search in the result finds it
(`positions_align`). So a second alignment changes nothing (`align_again`), and
columns that differ have positions that differ (`nodup_map_columnAt`).
-/

namespace LayeredSchema.RowBlock

/-- Where the first column of the given name stands; the number of columns if there
is none. -/
def columnAt (columns : List String) (name : String) : Nat :=
  columns.findIdx fun other => Name.same other name

/-- Some column has the given name. -/
def Found (columns : List String) (name : String) : Prop :=
  ∃ other ∈ columns, Name.fold other = Name.fold name

instance (columns : List String) (name : String) : Decidable (Found columns name) :=
  inferInstanceAs (Decidable (∃ other ∈ columns, Name.fold other = Name.fold name))

/-! ## One name -/

section

variable {columns more : List String} {name other : String}

theorem columnAt_lt_iff : columnAt columns name < columns.length ↔ Found columns name := by
  unfold columnAt Found
  simp only [List.findIdx_lt_length, Name.same_iff]

theorem Found.columnAt_lt (h : Found columns name) : columnAt columns name < columns.length :=
  columnAt_lt_iff.mpr h

theorem findIdx?_same_of_found (h : Found columns name) :
    columns.findIdx? (fun other => Name.same other name) = some (columnAt columns name) :=
  List.findIdx?_eq_some_iff_findIdx_eq.mpr ⟨h.columnAt_lt, rfl⟩

theorem findIdx?_same_of_not_found (h : ¬ Found columns name) :
    columns.findIdx? (fun other => Name.same other name) = none := by
  rw [List.findIdx?_eq_none_iff]
  intro other hother
  rw [Bool.eq_false_iff]
  exact fun hsame => h ⟨other, hother, Name.same_iff.mp hsame⟩

/-- The column that a name finds has that name. -/
theorem fold_getElem_columnAt (h : columnAt columns name < columns.length) :
    Name.fold columns[columnAt columns name] = Name.fold name :=
  Name.same_iff.mp (List.findIdx_getElem (w := h))

/-- Names that are the same find the same column. -/
theorem columnAt_congr (h : Name.fold name = Name.fold other) :
    columnAt columns name = columnAt columns other := by
  unfold columnAt Name.same
  rw [h]

/-- A name that finds a column does not notice columns behind it. -/
theorem Found.columnAt_of_prefix (h : Found columns name) (hmore : columns <+: more) :
    columnAt more name = columnAt columns name := by
  obtain ⟨added, rfl⟩ := hmore
  have hlt := h.columnAt_lt
  unfold columnAt at hlt ⊢
  rw [List.findIdx_append, if_pos hlt]

theorem Found.of_prefix (h : Found columns name) (hmore : columns <+: more) :
    Found more name := by
  obtain ⟨column, hcolumn, hname⟩ := h
  exact ⟨column, hmore.mem hcolumn, hname⟩

/-- A column added for a name that finds none is what the name finds. -/
theorem columnAt_concat_self (h : ¬ Found columns name) :
    columnAt (columns ++ [name]) name = columns.length := by
  have hge : ¬ columnAt columns name < columns.length := mt columnAt_lt_iff.mp h
  unfold columnAt at hge ⊢
  rw [List.findIdx_append, if_neg hge, List.findIdx_singleton, if_pos (Name.same_self name),
    Nat.zero_add]

end

/-! ## Alignments -/

variable {columns : List String}

theorem align_cons_of_found {column : String} (h : Found columns column) (rest : List String) :
    align columns (column :: rest) =
      ⟨(align columns rest).columns,
        columnAt columns column :: (align columns rest).positions⟩ := by
  rw [align, findIdx?_same_of_found h]

theorem align_cons_of_not_found {column : String} (h : ¬ Found columns column)
    (rest : List String) :
    align columns (column :: rest) =
      ⟨(align (columns ++ [column]) rest).columns,
        columns.length :: (align (columns ++ [column]) rest).positions⟩ := by
  rw [align, findIdx?_same_of_not_found h]

theorem columns_prefix_align (columns layer : List String) :
    columns <+: (align columns layer).columns := by
  induction layer generalizing columns with
  | nil => exact List.prefix_refl columns
  | cons column rest ih =>
    by_cases h : Found columns column
    · rw [align_cons_of_found h]
      exact ih columns
    · rw [align_cons_of_not_found h]
      exact (List.prefix_append columns [column]).trans (ih (columns ++ [column]))

theorem found_align (columns : List String) {layer : List String} {column : String}
    (hcolumn : column ∈ layer) : Found (align columns layer).columns column := by
  induction layer generalizing columns with
  | nil => exact absurd hcolumn List.not_mem_nil
  | cons first rest ih =>
    by_cases h : Found columns first
    · rw [align_cons_of_found h]
      rcases List.mem_cons.mp hcolumn with rfl | hcolumn
      · exact h.of_prefix (columns_prefix_align columns rest)
      · exact ih columns hcolumn
    · rw [align_cons_of_not_found h]
      rcases List.mem_cons.mp hcolumn with rfl | hcolumn
      · have hadded : Found (columns ++ [column]) column := ⟨column, by simp, rfl⟩
        exact hadded.of_prefix (columns_prefix_align _ rest)
      · exact ih (columns ++ [first]) hcolumn

/-- **Positions.** Each column of the layer stands where the result has it first. -/
theorem positions_align (columns layer : List String) :
    (align columns layer).positions = layer.map (columnAt (align columns layer).columns) := by
  induction layer generalizing columns with
  | nil => rfl
  | cons column rest ih =>
    by_cases h : Found columns column
    · rw [align_cons_of_found h, List.map_cons, ← ih columns,
        h.columnAt_of_prefix (columns_prefix_align columns rest)]
    · have hadded : Found (columns ++ [column]) column := ⟨column, by simp, rfl⟩
      rw [align_cons_of_not_found h, List.map_cons, ← ih (columns ++ [column]),
        hadded.columnAt_of_prefix (columns_prefix_align _ rest), columnAt_concat_self h]

/-- The columns of a layer that the base lacks follow those of the base. -/
theorem columns_align (columns : List String) {layer : List String}
    (hlayer : layer.Pairwise fun a b => Name.fold a ≠ Name.fold b) :
    (align columns layer).columns =
      columns ++ layer.filter fun column => ¬ Found columns column := by
  induction layer generalizing columns with
  | nil => exact (List.append_nil columns).symm
  | cons column rest ih =>
    obtain ⟨hcolumn, hrest⟩ := List.pairwise_cons.mp hlayer
    by_cases h : Found columns column
    · rw [align_cons_of_found h, List.filter_cons_of_neg (by simpa using h)]
      exact ih columns hrest
    · have hothers : ∀ other ∈ rest,
          Found (columns ++ [column]) other ↔ Found columns other := by
        intro other hother
        simp [Found, or_and_right, exists_or, hcolumn other hother]
      rw [align_cons_of_not_found h, List.filter_cons_of_pos (by simpa using h)]
      show (align (columns ++ [column]) rest).columns = _
      rw [ih _ hrest, List.append_assoc, List.singleton_append]
      congr 2
      exact List.filter_congr fun other hother => by simp only [hothers other hother]

theorem pairwise_align {layer : List String}
    (hcolumns : columns.Pairwise fun a b => Name.fold a ≠ Name.fold b)
    (hlayer : layer.Pairwise fun a b => Name.fold a ≠ Name.fold b) :
    (align columns layer).columns.Pairwise fun a b => Name.fold a ≠ Name.fold b := by
  rw [columns_align columns hlayer, List.pairwise_append]
  refine ⟨hcolumns, hlayer.sublist List.filter_sublist, fun a ha b hb hfold => ?_⟩
  exact of_decide_eq_true (List.mem_filter.mp hb).2 ⟨a, ha, hfold⟩

/-- A layer of which every column is there already adds none. -/
theorem align_of_found {layer : List String} (h : ∀ column ∈ layer, Found columns column) :
    align columns layer = ⟨columns, layer.map (columnAt columns)⟩ := by
  induction layer with
  | nil => rfl
  | cons column rest ih =>
    obtain ⟨hcolumn, hrest⟩ := List.forall_mem_cons.mp h
    rw [align_cons_of_found hcolumn, ih hrest, List.map_cons]

/-- A second alignment finds what the first one left. -/
theorem align_again (columns layer : List String) :
    align (align columns layer).columns layer = align columns layer := by
  rw [align_of_found fun column hcolumn => found_align columns hcolumn, ← positions_align]

theorem align_self (columns : List String) :
    align columns columns = ⟨columns, columns.map (columnAt columns)⟩ :=
  align_of_found fun column hcolumn => ⟨column, hcolumn, rfl⟩

/-- Columns that differ stand at positions that differ. -/
theorem nodup_map_columnAt {layer : List String}
    (hlayer : layer.Pairwise fun a b => Name.fold a ≠ Name.fold b)
    (hfound : ∀ column ∈ layer, Found columns column) :
    (layer.map (columnAt columns)).Nodup := by
  refine List.pairwise_map.mpr (hlayer.imp_of_mem ?_)
  intro a b ha hb hne heq
  have hlta := (hfound a ha).columnAt_lt
  have hltb := (hfound b hb).columnAt_lt
  refine hne ?_
  rw [← fold_getElem_columnAt hlta, ← fold_getElem_columnAt hltb]
  congr 2

/-- In a list without repetitions each column is found where it stands. -/
theorem columnAt_getElem (hcolumns : columns.Pairwise fun a b => Name.fold a ≠ Name.fold b)
    {i : Nat} (hi : i < columns.length) : columnAt columns columns[i] = i := by
  have hlt : columnAt columns columns[i] < columns.length :=
    columnAt_lt_iff.mpr ⟨columns[i], List.getElem_mem hi, rfl⟩
  have hfold := fold_getElem_columnAt hlt
  have hpair := List.pairwise_iff_getElem.mp hcolumns
  rcases Nat.lt_trichotomy (columnAt columns columns[i]) i with h | h | h
  · exact absurd hfold (hpair _ _ hlt hi h)
  · exact h
  · exact absurd hfold.symm (hpair _ _ hi hlt h)

end LayeredSchema.RowBlock
