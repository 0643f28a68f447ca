import LayeredSchema.Proofs.Reference.Embedding
import LayeredSchema.Proofs.Reference.Unambiguous
import Mathlib.Data.List.Perm.Basic

/-!
# Definitions in another order

A definition *rearranges* another one if it declares the same in another order: its
schemas, the tables of each schema, and the columns, foreign keys and constraints of
each table. The tables and columns of the two correspond, by the names of all that they
are in.

Where no name repeats, order does not matter to lookups, and a definition is embedded in
each of its rearrangements (`Definition.Places.embedding`), with nothing left over
(`Definition.Places.table_surjective`). Where a name does repeat this fails: the first
that bears it is another one then.
-/

namespace LayeredSchema

/-! ## Lists of rearranged things -/

/-- The members of a list, each changed in some way, in another order. -/
def Rearranged {α : Type} (changed : α → α → Prop) (some other : List α) : Prop :=
  ∃ between, List.Forall₂ changed some between ∧ between.Perm other

namespace Rearranged

variable {α : Type} {changed : α → α → Prop} {some other : List α}

theorem symm (hsymm : ∀ a b, changed a b → changed b a) (h : Rearranged changed some other) :
    Rearranged changed other some := by
  obtain ⟨between, hchanged, hperm⟩ := h
  have hback : List.Forall₂ changed between some :=
    (hchanged.imp fun a b hab => hsymm a b hab).flip
  exact List.perm_comp_forall₂ hperm.symm hback

theorem exists_mem (h : Rearranged changed some other) {a : α} (ha : a ∈ some) :
    ∃ b ∈ other, changed a b := by
  obtain ⟨between, hchanged, hperm⟩ := h
  obtain ⟨b, hb, hab⟩ := exists_of_forall₂ hchanged ha
  exact ⟨b, hperm.mem_iff.mp hb, hab⟩

/-- Siblings that keep their names stay distinct. -/
theorem distinct [Named α] (hname : ∀ a b, changed a b → Named.name b = Named.name a)
    (h : Rearranged changed some other) (hdistinct : Siblings.Distinct some) :
    Siblings.Distinct other := by
  obtain ⟨between, hchanged, hperm⟩ := h
  rw [Siblings.distinct_iff_nodup] at hdistinct ⊢
  have hkeys : some.map (fun a => Name.fold (Named.name a)) =
      between.map fun a => Name.fold (Named.name a) := by
    rw [← List.forall₂_eq_eq_eq, List.forall₂_map_left_iff, List.forall₂_map_right_iff]
    exact hchanged.imp fun a b hab => congrArg Name.fold (hname a b hab).symm
  rw [hkeys] at hdistinct
  exact (hperm.map _).nodup_iff.mp hdistinct

end Rearranged

/-! ## Rearrangements -/

/-- The table with its columns, foreign keys and constraints in another order. -/
structure Table.Rearranges (t u : Table) : Prop where
  columns : t.columns.Perm u.columns
  foreignKeys : t.foreignKeys.Perm u.foreignKeys
  constraints : t.constraints.Perm u.constraints
  rest : u = { t with
    columns := u.columns, foreignKeys := u.foreignKeys, constraints := u.constraints }

/-- The schema with its tables in another order, and rearranged themselves. -/
structure Schema.Rearranges (s r : Schema) : Prop where
  tables : Rearranged Table.Rearranges s.tables r.tables
  rest : r = { s with tables := r.tables }

/-- The definition with its schemas in another order, and rearranged themselves. -/
structure Definition.Rearranges (d e : Definition) : Prop where
  schemas : Rearranged Schema.Rearranges d.schemas e.schemas
  rest : e = { d with schemas := e.schemas }

@[refl]
theorem Table.Rearranges.refl (t : Table) : t.Rearranges t := ⟨.refl _, .refl _, .refl _, rfl⟩

@[refl]
theorem Schema.Rearranges.refl (s : Schema) : s.Rearranges s where
  tables := ⟨s.tables, List.forall₂_same.mpr fun t _ => .refl t, .refl _⟩
  rest := rfl

theorem Table.Rearranges.symm {t u : Table} (h : t.Rearranges u) : u.Rearranges t where
  columns := h.columns.symm
  foreignKeys := h.foreignKeys.symm
  constraints := h.constraints.symm
  rest := by rw [h.rest]

theorem Schema.Rearranges.symm {s r : Schema} (h : s.Rearranges r) : r.Rearranges s where
  tables := h.tables.symm fun _ _ => Table.Rearranges.symm
  rest := by rw [h.rest]

theorem Definition.Rearranges.symm {d e : Definition} (h : d.Rearranges e) : e.Rearranges d where
  schemas := h.schemas.symm fun _ _ => Schema.Rearranges.symm
  rest := by rw [h.rest]

theorem Table.Rearranges.name {t u : Table} (h : t.Rearranges u) : u.name = t.name := by
  rw [h.rest]

theorem Schema.Rearranges.name {s r : Schema} (h : s.Rearranges r) : r.name = s.name := by
  rw [h.rest]

namespace Definition.Rearranges

variable {d e : Definition}

/-- A rearrangement repeats no name that the definition does not repeat. -/
theorem unambiguous (h : d.Rearranges e) (hd : d.Unambiguous) : e.Unambiguous where
  schemas := h.schemas.distinct (fun _ _ => Schema.Rearranges.name) hd.schemas
  tables r hr := by
    obtain ⟨s, hs, hrs⟩ := h.symm.schemas.exists_mem hr
    exact hrs.symm.tables.distinct (fun _ _ => Table.Rearranges.name) (hd.tables s hs)
  columns r hr u hu := by
    obtain ⟨s, hs, hrs⟩ := h.symm.schemas.exists_mem hr
    obtain ⟨t, ht, hut⟩ := hrs.tables.exists_mem hu
    have hdistinct := Siblings.distinct_iff_nodup.mp (hd.columns s hs t ht)
    exact Siblings.distinct_iff_nodup.mpr ((hut.columns.map _).nodup_iff.mpr hdistinct)

/-! ## Corresponding places -/

theorem exists_schemaAt (h : d.Rearranges e) (i : Fin d.schemas.length) :
    ∃ j : Fin e.schemas.length, (d.schemas.get i).Rearranges (e.schemas.get j) := by
  obtain ⟨r, hr, hchanged⟩ := h.schemas.exists_mem (List.get_mem d.schemas i)
  obtain ⟨j, rfl⟩ := List.get_of_mem hr
  exact ⟨j, hchanged⟩

theorem exists_table (h : d.Rearranges e) (t : TableSlot d) :
    ∃ u : TableSlot e, t.schema.Rearranges u.schema ∧ t.table.Rearranges u.table := by
  obtain ⟨s, hs⟩ := h.exists_schemaAt t.schemaAt
  obtain ⟨u, hu, hchanged⟩ := hs.tables.exists_mem (List.get_mem t.schema.tables t.tableAt)
  obtain ⟨i, rfl⟩ := List.get_of_mem hu
  exact ⟨⟨s, i⟩, hs, hchanged⟩

end Definition.Rearranges

theorem Table.Rearranges.exists_column {d e : Definition} {t : TableSlot d} {u : TableSlot e}
    (h : t.table.Rearranges u.table) {c : ColumnSlot d} (hc : c.owner = t) :
    ∃ b : ColumnSlot e, b.owner = u ∧ b.column = c.column := by
  subst hc
  have hmem : c.column ∈ u.table.columns :=
    h.columns.mem_iff.mp (List.get_mem c.owner.table.columns c.columnAt)
  obtain ⟨i, hi⟩ := List.get_of_mem hmem
  exact ⟨⟨u, i⟩, rfl, hi⟩

/-- For each place of a definition, one in a rearrangement of it that holds the same. -/
structure Definition.Places (d e : Definition) where
  schemaAt : Fin d.schemas.length → Fin e.schemas.length
  table : TableSlot d → TableSlot e
  column : ColumnSlot d → ColumnSlot e
  schemaAt_rearranges : ∀ s, (d.schemas.get s).Rearranges (e.schemas.get (schemaAt s))
  schema_rearranges : ∀ t : TableSlot d, t.schema.Rearranges (table t).schema
  table_rearranges : ∀ t : TableSlot d, t.table.Rearranges (table t).table
  owner_column : ∀ c, (column c).owner = table c.owner
  column_column : ∀ c, (column c).column = c.column

theorem Definition.Rearranges.exists_places {d e : Definition} (h : d.Rearranges e) :
    Nonempty (d.Places e) := by
  choose schemaAt hschemaAt using h.exists_schemaAt
  choose table hschema htable using h.exists_table
  choose column howner hcolumn using fun c : ColumnSlot d => (htable c.owner).exists_column rfl
  exact ⟨⟨schemaAt, table, column, hschemaAt, hschema, htable, howner, hcolumn⟩⟩

namespace Definition.Places

variable {d e : Definition} (p : d.Places e)

theorem schema_name (t : TableSlot d) : (p.table t).schema.name = t.schema.name :=
  (p.schema_rearranges t).name

theorem table_name (t : TableSlot d) : (p.table t).table.name = t.table.name :=
  (p.table_rearranges t).name

theorem table_injective (hd : d.Unambiguous) : Function.Injective p.table := by
  intro t u htu
  refine hd.tableSlot_eq ?_ ?_
  · rw [← p.schema_name, ← p.schema_name, htu]
  · rw [← p.table_name, ← p.table_name, htu]

section Unambiguous

variable (he : e.Unambiguous)
include he

/-- Two places of one name are the same place. -/
theorem schemaAt_table (t : TableSlot d) : (p.table t).schemaAt = p.schemaAt t.schemaAt :=
  he.schemaAt_eq ((p.schema_name t).trans (p.schemaAt_rearranges t.schemaAt).name.symm)

/-- What a table holds in the rearrangement it held before. -/
theorem exists_column {t : TableSlot d} {c : ColumnSlot e} (hc : c.owner = p.table t) :
    ∃ b : ColumnSlot d, b.owner = t ∧ p.column b = c := by
  obtain ⟨b, rfl, hcolumn⟩ := (p.table_rearranges t).symm.exists_column hc
  refine ⟨b, rfl, he.columnSlot_eq ((p.owner_column b).trans hc.symm) ?_⟩
  rw [p.column_column, hcolumn]

theorem table_surjective (h : d.Rearranges e) : Function.Surjective p.table := by
  intro u
  obtain ⟨t, hschema, htable⟩ := h.symm.exists_table u
  refine ⟨t, he.tableSlot_eq ?_ ?_⟩
  · exact (p.schema_name t).trans hschema.name
  · exact (p.table_name t).trans htable.name

variable (hd : d.Unambiguous)
include hd

theorem column?_table (t : TableSlot d) (name : String) :
    (p.table t).column? name = (t.column? name).map p.column := by
  ext c
  rw [he.column?_eq_some_iff, Option.map_eq_some_iff]
  constructor
  · intro hc
    obtain ⟨howner, hname⟩ := hc
    obtain ⟨b, hb, rfl⟩ := p.exists_column he howner
    exact ⟨b, hd.column?_eq_some_iff.mpr ⟨hb, p.column_column b ▸ hname⟩, rfl⟩
  · intro hc
    obtain ⟨b, hb, rfl⟩ := hc
    obtain ⟨rfl, hname⟩ := hd.column?_eq_some_iff.mp hb
    exact ⟨p.owner_column b, p.column_column b ▸ hname⟩

theorem findTable_table {home : Fin d.schemas.length} {schema name referrer referrer' : String}
    {t : TableSlot d} (hfound : d.findTable home schema name referrer = .ok t) :
    e.findTable (p.schemaAt home) schema name referrer' = .ok (p.table t) := by
  obtain ⟨hschema, hname⟩ := hd.findTable_eq_ok_iff.mp hfound
  refine he.findTable_eq_ok_iff.mpr ⟨?_, by rwa [p.table_name]⟩
  split
  next hblank =>
    rw [if_pos hblank] at hschema
    rw [p.schemaAt_table he, hschema]
  next hblank =>
    rw [if_neg hblank] at hschema
    rwa [p.schema_name]

/-- **Order does not matter to lookups.** -/
def embedding : d.Embedding e where
  schemaAt := p.schemaAt
  table := p.table
  column := p.column
  table_injective := p.table_injective hd
  schemaAt_table := p.schemaAt_table he
  owner_column := p.owner_column
  column_column := p.column_column
  exists_column := p.exists_column he
  parentSchema t := by rw [(p.table_rearranges t).rest]
  parentTable t := by rw [(p.table_rearranges t).rest]
  mem_foreignKeys t _ := (p.table_rearranges t).foreignKeys.symm.mem_iff
  mem_constraints t _ := (p.table_rearranges t).constraints.symm.mem_iff
  findTable := p.findTable_table he hd
  column? := p.column?_table he hd

end Unambiguous

end Definition.Places

end LayeredSchema
