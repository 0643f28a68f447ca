import LayeredSchema.Proofs.Reference.Embedding

/-!
# References in a larger definition

A definition *extends* another one if it has all schemas of it in their places,
under their names, and in each of them all tables in their places, as they are.
Every slot of the smaller definition is then a slot of the larger one
(`Extends.lift`, `Extends.liftColumn`), and the smaller definition is embedded in the
larger one (`Extends.embedding`), so that every reference in it that can be followed
leads to the same place.

A name always finds the first that bears it, so that what comes later takes nothing
away from what was found before (`Siblings.position?_of_names`); and a table that is
looked at keeps its columns, its parent and its foreign keys. Nothing of the kind
holds of a reference that leads nowhere: it may find what the larger definition has
in addition.
-/

namespace LayeredSchema

/-! ## First of their names -/

namespace Siblings

variable {α : Type} [Named α] {name : String}

/-- Where the names are the same in front, what a name finds there is found again. -/
theorem position?_of_names {some more : List α} (hlen : some.length ≤ more.length)
    (hname : ∀ i : Fin some.length,
      Named.name (more.get (i.castLE hlen)) = Named.name (some.get i))
    {i : Fin some.length} (h : position? some name = .some i) :
    position? more name = .some (i.castLE hlen) := by
  obtain ⟨hi, hbefore⟩ := List.findFinIdx?_eq_some_iff.mp h
  refine List.findFinIdx?_eq_some_iff.mpr ⟨?_, fun j hj => ?_⟩
  · have heq := hname i
    simp only [List.get_eq_getElem, Fin.val_castLE] at heq
    simpa only [Fin.getElem_fin, Fin.val_castLE, heq] using hi
  · have hjlt : j.val < some.length := Nat.lt_trans hj i.isLt
    have heq := hname ⟨j, hjlt⟩
    simp only [List.get_eq_getElem, Fin.val_castLE] at heq
    have hnot := hbefore ⟨j, hjlt⟩ hj
    simpa only [Fin.getElem_fin, heq] using hnot

theorem position?_congr {some other : List α} (h : some = other) :
    position? other name =
      (position? some name).map (Fin.cast (congrArg List.length h)) := by
  subst h
  exact (congrFun Option.map_id _).symm

end Siblings

/-! ## Larger definitions -/

/-- A definition has all tables of another one in their places, and perhaps others behind
them. -/
structure Definition.Extends (d more : Definition) : Prop where
  length_le : d.schemas.length ≤ more.schemas.length
  name : ∀ s : Fin d.schemas.length,
    (more.schemas.get (s.castLE length_le)).name = (d.schemas.get s).name
  tables : ∀ s : Fin d.schemas.length,
    (d.schemas.get s).tables <+: (more.schemas.get (s.castLE length_le)).tables

namespace Definition.Extends

variable {d more : Definition} (h : d.Extends more)

/-- The place of a schema in the larger definition. -/
def schemaAt (s : Fin d.schemas.length) : Fin more.schemas.length := s.castLE h.length_le

/-- The place of a table in the larger definition. -/
def lift (t : TableSlot d) : TableSlot more where
  schemaAt := h.schemaAt t.schemaAt
  tableAt := t.tableAt.castLE (h.tables t.schemaAt).length_le

theorem schema_name_lift (t : TableSlot d) : (h.lift t).schema.name = t.schema.name :=
  h.name t.schemaAt

@[simp] theorem table_lift (t : TableSlot d) : (h.lift t).table = t.table :=
  ((h.tables t.schemaAt).getElem t.tableAt.isLt).symm

theorem lift_injective : Function.Injective h.lift := by
  intro t u htu
  obtain ⟨ts, tt⟩ := t
  obtain ⟨us, ut⟩ := u
  have hs : ts = us := by
    have hval := congrArg (fun v : TableSlot more => v.schemaAt.val) htu
    exact Fin.ext hval
  subst hs
  have hval := congrArg (fun v : TableSlot more => v.tableAt.val) htu
  exact congrArg (TableSlot.mk ts) (Fin.ext hval)

/-- The place of a column in the larger definition. -/
def liftColumn (c : ColumnSlot d) : ColumnSlot more where
  owner := h.lift c.owner
  columnAt := c.columnAt.cast (by rw [h.table_lift])

@[simp] theorem column_liftColumn (c : ColumnSlot d) : (h.liftColumn c).column = c.column := by
  simp only [ColumnSlot.column, liftColumn, List.get_eq_getElem, Fin.val_cast, h.table_lift]

/-- The place of a key in the larger definition. -/
def liftKey (k : Key d) : Key more := ⟨h.lift k.table, k.columns.map h.liftColumn⟩

/-! ## Tables by name -/

theorem tableIn?_lift {s : Fin d.schemas.length} {name : String} {t : TableSlot d}
    (hfound : d.tableIn? s name = some t) :
    more.tableIn? (h.schemaAt s) name = some (h.lift t) := by
  obtain ⟨i, hi, rfl⟩ := Option.map_eq_some_iff.mp hfound
  refine Option.map_eq_some_iff.mpr ⟨_, Siblings.position?_of_names (h.tables s).length_le ?_ hi, rfl⟩
  intro j
  exact congrArg Table.name ((h.tables s).getElem j.isLt).symm

theorem schemaFrom?_lift {home s : Fin d.schemas.length} {schema : String}
    (hfound : d.schemaFrom? home schema = some s) :
    more.schemaFrom? (h.schemaAt home) schema = some (h.schemaAt s) := by
  unfold schemaFrom? at hfound ⊢
  by_cases hblank : schema = ""
  · rw [if_pos hblank] at hfound ⊢
    rw [Option.some.inj hfound]
  · rw [if_neg hblank] at hfound ⊢
    exact Siblings.position?_of_names h.length_le h.name hfound

theorem findTable_lift {home : Fin d.schemas.length} {schema table referrer referrer' : String}
    {t : TableSlot d} (hfound : d.findTable home schema table referrer = .ok t) :
    more.findTable (h.schemaAt home) schema table referrer' = .ok (h.lift t) := by
  obtain ⟨s, hs, ht⟩ := findTable_eq_ok_iff.mp hfound
  exact findTable_eq_ok_iff.mpr ⟨_, h.schemaFrom?_lift hs, h.tableIn?_lift ht⟩

/-! ## Columns by name -/

theorem column?_lift (t : TableSlot d) (name : String) :
    (h.lift t).column? name = (t.column? name).map h.liftColumn := by
  unfold TableSlot.column?
  rw [Siblings.position?_congr (congrArg Table.columns (h.table_lift t).symm), Option.map_map,
    Option.map_map]
  rfl

/-- The columns of an old table are its old columns. -/
theorem exists_liftColumn {t : TableSlot d} {c : ColumnSlot more} (hc : c.owner = h.lift t) :
    ∃ b : ColumnSlot d, b.owner = t ∧ h.liftColumn b = c := by
  obtain ⟨owner, i⟩ := c
  obtain rfl : owner = h.lift t := hc
  exact ⟨⟨t, i.cast (by rw [h.table_lift])⟩, rfl, rfl⟩

/-- **Larger definitions answer the same.** -/
def embedding : d.Embedding more where
  schemaAt := h.schemaAt
  table := h.lift
  column := h.liftColumn
  table_injective := h.lift_injective
  owner_column _ := rfl
  column_column := h.column_liftColumn
  exists_column := h.exists_liftColumn
  schemaAt_table _ := rfl
  parentSchema t := by rw [h.table_lift]
  parentTable t := by rw [h.table_lift]
  mem_foreignKeys t := by simp
  mem_constraints t := by simp
  findTable := h.findTable_lift
  column? := h.column?_lift

end Definition.Extends

end LayeredSchema
