import LayeredSchema.Proofs.Reference.Inheritance
import LayeredSchema.Proofs.Siblings

/-!
# Lookups where no name repeats

Lookups take the first that bears a name, so that what they answer depends on the order
of declaration. Where no name repeats it does not: a definition is `Unambiguous` if no
two schemas, no two tables of a schema and no two columns of a table are the same, and
then a lookup answers a place exactly if the names that lead there are spellings of
those that were asked for (`findTable_eq_ok_iff`, `column?_eq_some_iff`). Tables and
columns are known by their names then (`tableSlot_eq`, `columnSlot_eq`).
-/

namespace LayeredSchema

open Siblings (Distinct position? position?_eq_some_iff)

/-- No name leads to two schemas, to two tables of a schema, or to two columns of a table. -/
structure Definition.Unambiguous (d : Definition) : Prop where
  schemas : Distinct d.schemas
  tables : ∀ s ∈ d.schemas, Distinct s.tables
  columns : ∀ s ∈ d.schemas, ∀ t ∈ s.tables, Distinct t.columns

variable {d : Definition}

namespace Definition.Unambiguous

variable (h : d.Unambiguous)
include h

theorem tableIn?_eq_some_iff {s : Fin d.schemas.length} {name : String} {t : TableSlot d} :
    d.tableIn? s name = some t ↔ t.schemaAt = s ∧ Name.same t.table.name name := by
  have hdistinct : Distinct (d.schemas.get s).tables := h.tables _ (List.get_mem _ _)
  unfold tableIn?
  rw [Option.map_eq_some_iff]
  constructor
  · intro hfound
    obtain ⟨i, hi, rfl⟩ := hfound
    exact ⟨rfl, (position?_eq_some_iff hdistinct).mp hi⟩
  · intro hnamed
    obtain ⟨rfl, hname⟩ := hnamed
    exact ⟨t.tableAt, (position?_eq_some_iff hdistinct).mpr hname, rfl⟩

/-- **Tables by two names.** A blank schema is the one it is seen from; otherwise the names
of the table and of its schema decide. -/
theorem findTable_eq_ok_iff {home : Fin d.schemas.length} {schema table referrer : String}
    {t : TableSlot d} :
    d.findTable home schema table referrer = .ok t ↔
      (if schema = "" then t.schemaAt = home else Name.same t.schema.name schema) ∧
        Name.same t.table.name table := by
  have hschema : ∀ s : Fin d.schemas.length, d.schemaFrom? home schema = some s ↔
      if schema = "" then s = home else Name.same (d.schemas.get s).name schema := by
    intro s
    unfold schemaFrom?
    split
    next => rw [Option.some.injEq, eq_comm]
    next => exact position?_eq_some_iff h.schemas
  rw [Definition.findTable_eq_ok_iff]
  constructor
  · intro hfound
    obtain ⟨s, hs, ht⟩ := hfound
    obtain ⟨rfl, hname⟩ := h.tableIn?_eq_some_iff.mp ht
    exact ⟨(hschema _).mp hs, hname⟩
  · intro hnamed
    obtain ⟨hs, hname⟩ := hnamed
    exact ⟨_, (hschema t.schemaAt).mpr hs, h.tableIn?_eq_some_iff.mpr ⟨rfl, hname⟩⟩

theorem column?_eq_some_iff {t : TableSlot d} {name : String} {c : ColumnSlot d} :
    t.column? name = some c ↔ c.owner = t ∧ Name.same c.column.name name := by
  have hdistinct : Distinct t.table.columns :=
    h.columns _ (List.get_mem _ _) _ (List.get_mem _ _)
  unfold TableSlot.column?
  rw [Option.map_eq_some_iff]
  constructor
  · intro hfound
    obtain ⟨i, hi, rfl⟩ := hfound
    exact ⟨rfl, (position?_eq_some_iff hdistinct).mp hi⟩
  · intro hnamed
    obtain ⟨rfl, hname⟩ := hnamed
    exact ⟨c.columnAt, (position?_eq_some_iff hdistinct).mpr hname, rfl⟩

theorem schemaAt_eq {s r : Fin d.schemas.length}
    (hname : (d.schemas.get s).name = (d.schemas.get r).name) : s = r := by
  have hs := (position?_eq_some_iff h.schemas).mpr (Name.same_self (d.schemas.get s).name)
  have hr := (position?_eq_some_iff h.schemas).mpr (Name.same_self (d.schemas.get r).name)
  rw [hname] at hs
  exact Option.some.inj (hs.symm.trans hr)

/-- A table is known by the names of its schema and its own. -/
theorem tableSlot_eq {t u : TableSlot d} (hschema : t.schema.name = u.schema.name)
    (htable : t.table.name = u.table.name) : t = u := by
  have ht := h.tableIn?_eq_some_iff.mpr ⟨h.schemaAt_eq hschema, Name.same_self t.table.name⟩
  have hu := h.tableIn?_eq_some_iff.mpr ⟨rfl, Name.same_self u.table.name⟩
  rw [htable] at ht
  exact Option.some.inj (ht.symm.trans hu)

/-- A column is known by its table and its name. -/
theorem columnSlot_eq {b c : ColumnSlot d} (howner : b.owner = c.owner)
    (hname : b.column.name = c.column.name) : b = c := by
  have hb := h.column?_eq_some_iff.mpr ⟨howner, Name.same_self b.column.name⟩
  have hc := h.column?_eq_some_iff.mpr ⟨rfl, Name.same_self c.column.name⟩
  rw [hname] at hb
  exact Option.some.inj (hb.symm.trans hc)

end Definition.Unambiguous

end LayeredSchema
