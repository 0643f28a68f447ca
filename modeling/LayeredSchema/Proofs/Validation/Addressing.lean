import LayeredSchema.Proofs.Reference.Unambiguous
import LayeredSchema.Proofs.Validation.Rules
import LayeredSchema.Reference.Key

/-!
# Names in valid definitions

In a valid definition a name leads to one place only. Lookups take the first sibling
that bears a name, in whatever case it is spelled, and validation asks of each kind of
sibling that none is the same as another; so the first is the only one, and each
sibling is what its name finds (`Siblings.FoundBy`). From there it goes up:
`Table.Addressable` and `Schema.Addressable` say it of what is looked up in a table or
a schema, and `Definition.Addressable` adds what is looked up across them, tables by
two names and the columns of primary keys.

Nothing of this holds of a definition that is not valid, where the first of two
siblings hides the other one.
-/

namespace LayeredSchema

open Siblings (Distinct position? position?_eq_some_iff)

/-- Every sibling is what a lookup answers for each spelling of its name, and the name is
found in the place of the sibling. -/
def Siblings.FoundBy {α : Type} [Named α] (lookup : String → Option α) (siblings : List α) :
    Prop :=
  ∀ (i : Fin siblings.length) (spelling : String),
    Name.same (Named.name (siblings.get i)) spelling →
      lookup spelling = some (siblings.get i) ∧ position? siblings spelling = some i

open Siblings (FoundBy)

/-- **No two of a name.** Among distinct siblings a name finds the one that bears it. -/
theorem Siblings.Distinct.foundBy {α : Type} [Named α] {siblings : List α}
    (h : Distinct siblings) : FoundBy (Siblings.named? siblings) siblings := by
  intro i spelling hspelling
  have hposition := (position?_eq_some_iff h).mpr hspelling
  rw [Siblings.named?_eq_map_position?, hposition]
  exact ⟨rfl, rfl⟩

/-! ## Tables and schemas -/

/-- What is looked up in a table is found in its place. -/
structure Table.Addressable (t : Table) : Prop where
  columns : FoundBy t.column? t.columns
  indexes : FoundBy t.index? t.indexes
  constraints : FoundBy t.constraint? t.constraints
  foreignKeys : FoundBy t.foreignKey? t.foreignKeys

theorem Table.addressable_of_meets {t : Table} (h : ∀ c, t.Meets c) : t.Addressable where
  columns := (h .duplicateColumn : Distinct t.columns).foundBy
  indexes := (h .duplicateIndex : Distinct t.indexes).foundBy
  constraints := (h .duplicateConstraint : Distinct t.constraints).foundBy
  foreignKeys := by
    have hname : ∀ fk ∈ t.foreignKeys, fk.name ≠ "" := h .foreignKeyMissingName
    have hdistinct : Distinct t.namedForeignKeys := h .duplicateForeignKey
    -- only those with a name are compared, but there are no others
    have hall : t.namedForeignKeys = t.foreignKeys :=
      List.filter_eq_self.mpr fun fk hfk => by simpa using hname fk hfk
    rw [hall] at hdistinct
    exact hdistinct.foundBy

/-- What is looked up in a schema is found in its place. -/
structure Schema.Addressable (s : Schema) : Prop where
  tables : FoundBy s.table? s.tables
  types : FoundBy s.type? s.types
  sequences : FoundBy s.sequence? s.sequences
  views : FoundBy s.view? s.views
  parts : ∀ t ∈ s.tables, t.Addressable

namespace Definition

variable {d : Definition}

theorem schema_addressable_of_valid (h : d.validate = .ok ()) {s : Schema} (hs : s ∈ d.schemas) :
    s.Addressable where
  tables := (schema_meets_of_valid h hs .duplicateTable : Distinct s.tables).foundBy
  types := (schema_meets_of_valid h hs .duplicateType : Distinct s.types).foundBy
  sequences := (schema_meets_of_valid h hs .duplicateSequence : Distinct s.sequences).foundBy
  views := (schema_meets_of_valid h hs .duplicateView : Distinct s.views).foundBy
  parts _ ht := Table.addressable_of_meets (table_meets_of_valid h hs ht)

/-! ## Across schemas -/

theorem unambiguous_of_valid (h : d.validate = .ok ()) : d.Unambiguous where
  schemas := validate_eq_ok_iff.mp h .duplicateSchema
  tables _ hs := schema_meets_of_valid h hs .duplicateTable
  columns _ hs _ ht := table_meets_of_valid h hs ht .duplicateColumn

/-- From anywhere in the definition, spellings of its two names lead to a table. -/
theorem resolveTable_of_names (h : d.Unambiguous) (home : Fin d.schemas.length)
    {t : TableSlot d} {schema table : String} (hne : t.schema.name ≠ "")
    (hschema : Name.same t.schema.name schema) (htable : Name.same t.table.name table) :
    d.resolveTable home schema table = .ok t := by
  have hblank : schema ≠ "" := by
    rintro rfl
    rw [Name.same_iff, Name.fold_eq_blank_iff.mpr rfl] at hschema
    exact hne (Name.fold_eq_blank_iff.mp hschema)
  refine h.findTable_eq_ok_iff.mpr ⟨?_, htable⟩
  rw [if_neg hblank]
  exact hschema

/-- A column that the table declares itself is found without looking at ancestors. -/
theorem requireColumn_of_column? {t : TableSlot d} {name referrer : String} {c : ColumnSlot d}
    (h : t.column? name = some c) : t.requireColumn referrer name = .ok c := by
  refine TableSlot.requireColumn_eq_ok_iff.mpr (TableSlot.inheritedColumn?_eq_iff.mpr ?_)
  have hstop : TableSlot.inheritanceStep name t = .ok (.stop (some c)) :=
    TableSlot.inheritanceStep_eq_stop_iff.mpr ⟨h, fun hnone => absurd hnone (by simp)⟩
  exact .stops (n := 0) rfl hstop

/-- A key over columns that a table declares, one for each name. -/
theorem exists_localKey {t : TableSlot d} {names : List String}
    (h : ∀ name ∈ names, (t.table.column? name).isSome) :
    ∃ k, t.localKey names = .ok k ∧ k.table = t ∧
      List.Forall₂ (fun name c => c.owner = t ∧ Name.same c.column.name name) names k.columns := by
  have hfound : ∀ name ∈ names, ∃ c, t.column? name = some c := by
    intro name hname
    have hsome := h name hname
    rw [Table.column?, Siblings.named?_eq_map_position?, Option.isSome_map] at hsome
    obtain ⟨i, hi⟩ := Option.isSome_iff_exists.mp hsome
    exact ⟨⟨t, i⟩, Option.map_eq_some_iff.mpr ⟨i, hi, rfl⟩⟩
  obtain ⟨columns, hcolumns⟩ := exists_forall₂ hfound
  refine ⟨⟨t, columns⟩, ?_, rfl, hcolumns.imp fun name c hc => ⟨?_, ?_⟩⟩
  · have hall : names.mapM (t.requireColumn t.qualifiedName) = .ok columns :=
      mapM_eq_ok_iff.mpr (hcolumns.imp fun _ _ hc => requireColumn_of_column? hc)
    exact bind_eq_ok_iff.mpr ⟨columns, hall, rfl⟩
  · obtain ⟨i, -, rfl⟩ := Option.map_eq_some_iff.mp hc
    rfl
  · exact Name.same_iff.mpr (TableSlot.fold_name_of_column? hc)

/-- What is looked up in a definition is found in its place, wherever it is asked for. -/
structure Addressable (d : Definition) : Prop where
  schemas : FoundBy d.schema? d.schemas
  parts : ∀ s ∈ d.schemas, s.Addressable
  tables : ∀ (home : Fin d.schemas.length) (t : TableSlot d) (schema table : String),
    t.schema.name ≠ "" → Name.same t.schema.name schema → Name.same t.table.name table →
      d.resolveTable home schema table = .ok t
  primaryKeys : ∀ t : TableSlot d, ¬ t.table.hasParent →
    ∃ k, t.localKey t.table.primaryKey = .ok k ∧ k.table = t ∧
      List.Forall₂ (fun name c => c.owner = t ∧ Name.same c.column.name name)
        t.table.primaryKey k.columns

/-- **Valid definitions are addressable.** -/
theorem addressable_of_valid (h : d.validate = .ok ()) : d.Addressable where
  schemas := (unambiguous_of_valid h).schemas.foundBy
  parts _ hs := schema_addressable_of_valid h hs
  tables home _ _ _ hne := resolveTable_of_names (unambiguous_of_valid h) home hne
  primaryKeys _ hparent :=
    exists_localKey (table_meets_of_valid h (List.get_mem _ _) (List.get_mem _ _)
      .primaryKeyUnknownColumn hparent)

/-- A table of one name in two schemas, one of them with everything that bears a name. -/
def clinic : Definition where
  schemas :=
    [{ name := "public"
       tables :=
        [{ name := "Visits"
           primaryKey := ["Day", "PATIENT"]
           columns := [.typed "patient" "int", .typed "day" "date"]
           indexes := [.onColumns "by_day" ["day"]]
           constraints := [{ name := "sane", kind := .check }]
           foreignKeys :=
            [{ columns := ["patient"], foreignTable := "people", name := "who" },
             { columns := ["day"], foreignTable := "days", name := "when" }] }]
       types := [.ofLabels "mood" ["good", "bad"]]
       sequences := [{ name := "ids" }]
       views := [{ name := "today" }] },
     { name := "archive", tables := [{ name := "people" }, { name := "visits" }] }]

theorem addressable_of_valid_clinic :
    clinic.validate = .ok () ∧ clinic.Addressable ∧
      clinic.resolveTable ⟨0, by decide⟩ "ARCHIVE" "VISITS" =
        .ok ⟨⟨1, by decide⟩, ⟨1, by decide⟩⟩ ∧
      (⟨⟨0, by decide⟩, ⟨0, by decide⟩⟩ : TableSlot clinic).table.foreignKey? "WHEN" =
        some { columns := ["day"], foreignTable := "days", name := "when" } := by
  have hvalid : clinic.validate = .ok () := by decide +kernel
  have haddress := addressable_of_valid hvalid
  refine ⟨hvalid, haddress, ?_, ?_⟩
  · exact haddress.tables _ ⟨⟨1, by decide⟩, ⟨1, by decide⟩⟩ _ _ (by decide) (by decide +kernel)
      (by decide +kernel)
  · have hpublic := haddress.parts _ (List.get_mem clinic.schemas ⟨0, by decide⟩)
    have hvisits := hpublic.parts _ (List.get_mem _ ⟨0, by decide⟩)
    exact (hvisits.foreignKeys ⟨1, by decide⟩ "WHEN" (by decide +kernel)).1

end Definition

end LayeredSchema
