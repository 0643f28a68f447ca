import LayeredSchema.Proofs.Reference.Chain
import LayeredSchema.Proofs.Reference.Slot
import LayeredSchema.Proofs.Traversal
import LayeredSchema.Reference.Inheritance

/-!
# Columns found along the ancestors

A column that is asked for by name is found on a table or on one of its
ancestors, and the slot that is found says where. Nothing of the name but its
folded spelling counts (`inheritedColumn?_congr`), and the column that is found
bears that spelling. So asking the same table again for the column by the
column's own spelling finds the same slot (`inheritedColumn?_self`).

A search fails for a parent that cannot be found or a table that is its own
ancestor; of the errors that a chain of proxies has as a whole it has none
(`not_ofProxies_of_inheritedColumn?`).
-/

namespace LayeredSchema

variable {d : Definition}

/-- The errors that a chain of proxies has as a whole, as opposed to those of
one link of it. -/
def ResolveError.OfProxies : ResolveError → Prop
  | foreignKeyCycle _ _ => True
  | untypedColumn _ _ => True
  | _ => False

/-! ## Lookups by name -/

namespace Definition

section

variable {home : Fin d.schemas.length} {schema table referrer : String}

/-- The schema that a name means as seen from a schema, which a blank one leaves as it is. -/
def schemaFrom? (d : Definition) (home : Fin d.schemas.length) (schema : String) :
    Option (Fin d.schemas.length) :=
  if schema = "" then some home else Siblings.position? d.schemas schema

theorem schemaFrom?_eq_none_iff : d.schemaFrom? home schema = none ↔
    schema ≠ "" ∧ ∀ s ∈ d.schemas, ¬ Name.same s.name schema := by
  unfold schemaFrom? Siblings.position?
  by_cases hblank : schema = ""
  · simp [hblank]
  · rw [if_neg hblank, List.findFinIdx?_eq_none_iff]
    exact ⟨fun h => ⟨hblank, h⟩, fun h => h.2⟩

theorem tableIn?_eq_none_iff : d.tableIn? home table = none ↔
    ∀ t ∈ (d.schemas.get home).tables, ¬ Name.same t.name table := by
  unfold tableIn? Siblings.position?
  rw [Option.map_eq_none_iff, List.findFinIdx?_eq_none_iff]
  rfl

/-- Two names lead to a table if the first one leads to a schema and the second one to the
table in it. Who asks makes no difference, -/
theorem findTable_eq_ok_iff {t : TableSlot d} :
    d.findTable home schema table referrer = .ok t ↔
      ∃ s, d.schemaFrom? home schema = some s ∧ d.tableIn? s table = some t := by
  unfold findTable
  rw [← schemaFrom?]
  cases hschema : d.schemaFrom? home schema with
  | none => simp
  | some s =>
    cases htable : d.tableIn? s table with
    | none => simp [htable]
    | some u => simp [htable]

/-- but is told which of the names leads nowhere. -/
theorem findTable_eq_error_iff {e : ResolveError} :
    d.findTable home schema table referrer = .error e ↔
      (d.schemaFrom? home schema = none ∧ e = .unknownSchema referrer schema) ∨
        ∃ s, d.schemaFrom? home schema = some s ∧ d.tableIn? s table = none ∧
          e = .unknownTable referrer (d.schemas.get s).name table := by
  unfold findTable
  rw [← schemaFrom?]
  cases hschema : d.schemaFrom? home schema with
  | none => simp [eq_comm]
  | some s =>
    cases htable : d.tableIn? s table with
    | none => simp [htable, eq_comm]
    | some u => simp [htable]

theorem not_ofProxies_of_findTable {e : ResolveError}
    (h : d.findTable home schema table referrer = .error e) : ¬ e.OfProxies := by
  rcases findTable_eq_error_iff.mp h with ⟨-, rfl⟩ | ⟨_, -, -, rfl⟩
  · exact id
  · exact id

end

end Definition

namespace TableSlot

theorem column?_congr {name name' : String} (h : Name.fold name = Name.fold name')
    (t : TableSlot d) : t.column? name = t.column? name' := by
  unfold column? Siblings.position? Name.same
  rw [h]

/-- The column that a name finds bears that name, in some spelling. -/
theorem fold_name_of_column? {t : TableSlot d} {name : String} {c : ColumnSlot d}
    (h : t.column? name = some c) : Name.fold c.column.name = Name.fold name := by
  obtain ⟨i, hi, rfl⟩ := Option.map_eq_some_iff.mp h
  have hsame := (List.findFinIdx?_eq_some_iff.mp hi).1
  exact Name.same_iff.mp hsame

/-! ## The search along the ancestors -/

theorem inheritedColumn?_eq_iff {t : TableSlot d} {name : String}
    {r : Except ResolveError (Option (ColumnSlot d))} :
    t.inheritedColumn? name = r ↔
      Outcome (inheritanceStep name) (fun u => .inheritanceCycle u.qualifiedName) t r :=
  follow_eq_iff Definition.mem_tableSlots (Definition.nodup_tableSlots d)

theorem inheritanceStep_congr {name name' : String} (h : Name.fold name = Name.fold name') :
    inheritanceStep (d := d) name = inheritanceStep name' := by
  funext t
  unfold inheritanceStep
  rw [column?_congr h]

theorem inheritedColumn?_congr {name name' : String} (h : Name.fold name = Name.fold name')
    (t : TableSlot d) : t.inheritedColumn? name = t.inheritedColumn? name' := by
  unfold inheritedColumn?
  rw [inheritanceStep_congr h]

/-- A search ends at the first table that declares the column, and without one at a table
that has no parent. -/
theorem inheritanceStep_eq_stop_iff {t : TableSlot d} {name : String}
    {c : Option (ColumnSlot d)} :
    inheritanceStep name t = .ok (.stop c) ↔
      t.column? name = c ∧ (c = none → ¬ t.table.hasParent) := by
  unfold inheritanceStep
  cases hc : t.column? name with
  | some found => cases c <;> simp
  | none =>
    by_cases hparent : t.table.hasParent
    · cases hp : t.parent <;> cases c <;> simp [hparent, Except.map]
    · cases c <;> simp [hparent]

/-- It goes on to the parent of a table that has one and does not declare the column. -/
theorem inheritanceStep_eq_next_iff {t u : TableSlot d} {name : String} :
    inheritanceStep name t = .ok (.next u) ↔
      t.column? name = none ∧ t.table.hasParent ∧ t.parent = .ok u := by
  unfold inheritanceStep
  cases hc : t.column? name with
  | some found => simp
  | none =>
    by_cases hparent : t.table.hasParent
    · cases hp : t.parent <;> simp [hparent, Except.map]
    · simp [hparent]

/-- What fails on the way is the search for a parent. -/
theorem inheritanceStep_eq_error_iff {t : TableSlot d} {name : String} {e : ResolveError} :
    inheritanceStep name t = .error e ↔
      t.column? name = none ∧ t.table.hasParent ∧ t.parent = .error e := by
  unfold inheritanceStep
  cases hc : t.column? name with
  | some found => simp
  | none =>
    by_cases hparent : t.table.hasParent
    · cases hp : t.parent <;> simp [hparent, Except.map]
    · simp [hparent]

theorem parent_of_inheritanceStep {t : TableSlot d} {name : String} {e : ResolveError}
    (h : inheritanceStep name t = .error e) : t.parent = .error e :=
  (inheritanceStep_eq_error_iff.mp h).2.2

theorem fold_name_of_inheritedColumn? {t : TableSlot d} {name : String} {c : ColumnSlot d}
    (h : t.inheritedColumn? name = .ok (some c)) : Name.fold c.column.name = Name.fold name := by
  cases inheritedColumn?_eq_iff.mp h with
  | stops hn hstop => exact fold_name_of_column? (inheritanceStep_eq_stop_iff.mp hstop).1

/-- **The second lookup.** A column that a table declares or inherits is found
again, in the same place, by its own spelling of the name. -/
theorem inheritedColumn?_self {t : TableSlot d} {name : String} {c : ColumnSlot d}
    (h : t.inheritedColumn? name = .ok (some c)) :
    t.inheritedColumn? c.column.name = .ok (some c) := by
  rw [inheritedColumn?_congr (fold_name_of_inheritedColumn? h), h]

theorem not_ofProxies_of_inheritedColumn? {t : TableSlot d} {name : String} {e : ResolveError}
    (h : t.inheritedColumn? name = .error e) : ¬ e.OfProxies := by
  cases inheritedColumn?_eq_iff.mp h with
  | fails hn hfail =>
    exact Definition.not_ofProxies_of_findTable (parent_of_inheritanceStep hfail)
  | revisits hu => exact id

theorem requireColumn_eq_ok_iff {t : TableSlot d} {referrer name : String} {c : ColumnSlot d} :
    t.requireColumn referrer name = .ok c ↔ t.inheritedColumn? name = .ok (some c) := by
  unfold requireColumn
  split <;> simp_all

theorem not_ofProxies_of_requireColumn {t : TableSlot d} {referrer name : String}
    {e : ResolveError} (h : t.requireColumn referrer name = .error e) : ¬ e.OfProxies := by
  unfold requireColumn at h
  split at h
  next e' he =>
    cases h
    exact not_ofProxies_of_inheritedColumn? he
  next => cases h
  next =>
    cases h
    exact id

end TableSlot

end LayeredSchema
