import LayeredSchema.Proofs.Reference.Key
import LayeredSchema.Proofs.Reference.Terminal

/-!
# Definitions within definitions

An `Embedding` gives every table and every column of a definition a place in another
one that answers questions by name as the first does: a table that is found there is
found here in its place, and so is a column on a table; and a table in its new place
names the same parent and declares the same references. It is not said where the places
are, nor what else the other definition holds.

That is all that references need. Whatever can be followed in the first definition leads
to the same place in the other one, link by link and then along whole chains, which
follow by `Outcome.map`. What leads nowhere may lead somewhere there.
-/

namespace LayeredSchema

/-- The places of a definition in another one. -/
structure Definition.Embedding (d more : Definition) where
  schemaAt : Fin d.schemas.length → Fin more.schemas.length
  table : TableSlot d → TableSlot more
  column : ColumnSlot d → ColumnSlot more
  table_injective : Function.Injective table
  schemaAt_table : ∀ t, (table t).schemaAt = schemaAt t.schemaAt
  owner_column : ∀ c, (column c).owner = table c.owner
  column_column : ∀ c, (column c).column = c.column
  exists_column : ∀ {t c}, c.owner = table t → ∃ b, b.owner = t ∧ column b = c
  parentSchema : ∀ t, (table t).table.parentSchema = t.table.parentSchema
  parentTable : ∀ t, (table t).table.parentTable = t.table.parentTable
  mem_foreignKeys : ∀ t fk, fk ∈ (table t).table.foreignKeys ↔ fk ∈ t.table.foreignKeys
  mem_constraints : ∀ t c, c ∈ (table t).table.constraints ↔ c ∈ t.table.constraints
  findTable : ∀ {home schema name referrer referrer' t},
    d.findTable home schema name referrer = .ok t →
      more.findTable (schemaAt home) schema name referrer' = .ok (table t)
  column? : ∀ t name, (table t).column? name = (t.column? name).map column

namespace Definition.Embedding

variable {d more : Definition} (e : d.Embedding more)

/-! ## Columns along the ancestors -/

theorem parent_table {t u : TableSlot d} (hparent : t.parent = .ok u) :
    (e.table t).parent = .ok (e.table u) := by
  unfold TableSlot.parent
  rw [e.parentSchema, e.parentTable, e.schemaAt_table]
  exact e.findTable hparent

theorem hasParent_table (t : TableSlot d) : (e.table t).table.hasParent = t.table.hasParent := by
  unfold Table.hasParent
  rw [e.parentTable]

/-- A step of the search along the ancestors ends with the same column, or without one. -/
theorem inheritanceStep_stop {name : String} (t : TableSlot d) (c : Option (ColumnSlot d))
    (hstep : TableSlot.inheritanceStep name t = .ok (.stop c)) :
    TableSlot.inheritanceStep name (e.table t) = .ok (.stop (c.map e.column)) := by
  obtain ⟨hc, hparent⟩ := TableSlot.inheritanceStep_eq_stop_iff.mp hstep
  rw [TableSlot.inheritanceStep_eq_stop_iff, e.column?, e.hasParent_table, hc,
    Option.map_eq_none_iff]
  exact ⟨rfl, hparent⟩

/-- Or it goes on to the same parent. -/
theorem inheritanceStep_next {name : String} (t u : TableSlot d)
    (hstep : TableSlot.inheritanceStep name t = .ok (.next u)) :
    TableSlot.inheritanceStep name (e.table t) = .ok (.next (e.table u)) := by
  obtain ⟨hc, hparent, hu⟩ := TableSlot.inheritanceStep_eq_next_iff.mp hstep
  rw [TableSlot.inheritanceStep_eq_next_iff, e.column?, e.hasParent_table, hc]
  exact ⟨rfl, hparent, e.parent_table hu⟩

/-- A search that comes to an end comes to the same end, also when it ends without a column. -/
theorem inheritedColumn?_table {t : TableSlot d} {name : String} {c : Option (ColumnSlot d)}
    (hfound : t.inheritedColumn? name = .ok c) :
    (e.table t).inheritedColumn? name = .ok (c.map e.column) :=
  TableSlot.inheritedColumn?_eq_iff.mpr
    ((TableSlot.inheritedColumn?_eq_iff.mp hfound).map e.inheritanceStep_next
      e.inheritanceStep_stop)

theorem requireColumn_table {t : TableSlot d} {referrer referrer' name : String}
    {c : ColumnSlot d} (hfound : t.requireColumn referrer name = .ok c) :
    (e.table t).requireColumn referrer' name = .ok (e.column c) :=
  TableSlot.requireColumn_eq_ok_iff.mpr
    (e.inheritedColumn?_table (TableSlot.requireColumn_eq_ok_iff.mp hfound))

/-! ## Keys -/

/-- The place of a key. -/
def key (k : Key d) : Key more := ⟨e.table k.table, k.columns.map e.column⟩

theorem names_key (k : Key d) : (e.key k).names = k.names := by
  unfold Key.names key
  rw [List.map_map]
  exact List.map_congr_left fun c _ => congrArg Column.name (e.column_column c)

theorem keyOver_table {t : TableSlot d} {referrer referrer' : String} {names : List String}
    {k : Key d} (hfound : t.keyOver referrer names = .ok k) :
    (e.table t).keyOver referrer' names = .ok (e.key k) := by
  obtain ⟨htable, hcolumns⟩ := TableSlot.keyOver_eq_ok_iff.mp hfound
  refine TableSlot.keyOver_eq_ok_iff.mpr ⟨congrArg e.table htable, ?_⟩
  rw [key, List.forall₂_map_right_iff]
  exact hcolumns.imp fun _ _ hc => e.requireColumn_table hc

theorem reach_key {k target : Key d} {ref : KeyRef} {referrer referrer' : String}
    (hfound : k.reach ref referrer = .ok target) :
    (e.key k).reach ref referrer' = .ok (e.key target) := by
  obtain ⟨t, ht, hcount, htarget⟩ := Key.reach_eq_ok_iff.mp hfound
  have hhome : (e.key k).table.schemaAt = e.schemaAt k.table.schemaAt := e.schemaAt_table k.table
  have hlength : (e.key k).columns.length = k.columns.length := List.length_map _
  refine Key.reach_eq_ok_iff.mpr ⟨e.table t, hhome ▸ e.findTable ht, ?_, ?_⟩
  · rwa [hlength]
  · rw [e.names_key]
    exact e.keyOver_table htarget

theorem targetFor_key {k target : Key d} {ref : KeyRef} {referrer referrer' : String}
    (hfound : k.targetFor ref referrer = .ok target) :
    (e.key k).targetFor ref referrer' = .ok (e.key target) := by
  obtain ⟨hcolumns, hreach⟩ := Key.targetFor_eq_ok_iff.mp hfound
  exact Key.targetFor_eq_ok_iff.mpr ⟨by simpa [key] using hcolumns, e.reach_key hreach⟩

theorem targetKey_column {c : ColumnSlot d} {k : Key d} (hfound : c.targetKey = .ok k) :
    (e.column c).targetKey = .ok (e.key k) := by
  unfold ColumnSlot.targetKey at hfound ⊢
  rw [e.column_column]
  split at hfound
  next => cases hfound
  next ref href =>
    have hkey : (⟨(e.column c).owner, [e.column c]⟩ : Key more) = e.key ⟨c.owner, [c]⟩ := by
      rw [e.owner_column]
      rfl
    rw [hkey]
    exact e.targetFor_key hfound

theorem targetKey_table {t : TableSlot d} {fk : ForeignKey} {k : Key d}
    (hfound : t.targetKey fk = .ok k) : (e.table t).targetKey fk = .ok (e.key k) := by
  obtain ⟨hcolumns, own, hown, htarget⟩ := TableSlot.targetKey_eq_ok_iff.mp hfound
  exact TableSlot.targetKey_eq_ok_iff.mpr
    ⟨hcolumns, e.key own, e.keyOver_table hown, e.targetFor_key htarget⟩

theorem constraintTarget_table {t u : TableSlot d} {constraint : Constraint}
    (hfound : t.constraintTarget constraint = .ok u) :
    (e.table t).constraintTarget constraint = .ok (e.table u) := by
  unfold TableSlot.constraintTarget
  rw [e.schemaAt_table]
  exact e.findTable hfound

/-! ## Chains of proxies -/

theorem referent?_column {c u : ColumnSlot d} (hfound : c.referent? = some u) :
    (e.column c).referent? = some (e.column u) := by
  obtain ⟨t, ht⟩ := ColumnSlot.referent?_eq_some_iff.mp hfound
  exact ColumnSlot.referent?_eq_some_iff.mpr ⟨e.table t, e.targetKey_column ht⟩

theorem terminal_column {c u : ColumnSlot d} (hfound : c.terminal = .ok u) :
    (e.column c).terminal = .ok (e.column u) := by
  refine ColumnSlot.terminal_eq_iff.mpr ((ColumnSlot.terminal_eq_iff.mp hfound).map ?_ ?_)
  · intro a b hab
    obtain ⟨href, hborrows⟩ := ColumnSlot.terminalStep_eq_next_iff.mp hab
    exact ColumnSlot.terminalStep_eq_next_iff.mpr
      ⟨e.referent?_column href, by rwa [e.column_column]⟩
  · intro a b hab
    obtain ⟨href, htype⟩ := ColumnSlot.terminalStep_eq_stop_iff.mp hab
    exact ColumnSlot.terminalStep_eq_stop_iff.mpr
      ⟨e.referent?_column href, by rwa [e.column_column]⟩

end Definition.Embedding

end LayeredSchema
