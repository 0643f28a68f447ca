import LayeredSchema.Edit
import LayeredSchema.Proofs.Overlay.Kinds
import LayeredSchema.Proofs.Reference.Unambiguous
import Mathlib.Data.List.Induction

/-!
# Sessions keep names apart

Layers, new schemas and assignments never make two siblings of one name: every
definition that such a session reaches is `Unambiguous` (`session_unambiguous`).
Each step is a lookup of its own kind, but all of them mean the first sibling
that bears a name.

* An assignment changes what its names find, in its place, and the names find it
  there afterwards (`Siblings.EditedAt`); or they find nothing and nothing has
  changed (`Siblings.Edited`). The relation nests like the entities do
  (`SchemaEdited`, `TableEdited`, `ColumnEdited`).
* A schema that is asked for is added only where no schema bears the name
  (`ensureSchema_eq`).
* A layer lands on what bears its names (`Unambiguous.overlay`).

Schemas, tables and columns that are added without a lookup are left out: they
are how names come to repeat.
-/

namespace LayeredSchema

open Siblings (Distinct named? position? forall_overlay)

/-! ## Edits of one sibling -/

namespace Siblings

variable {α : Type}

theorem modifyFirst?_const {p : α → Bool} {b : α} {siblings : List α} :
    modifyFirst? p (fun _ => b) siblings =
      (siblings.findIdx? p).map fun i => siblings.set i b := by
  induction siblings with
  | nil => rfl
  | cons a rest ih =>
    rw [modifyFirst?, List.findIdx?_cons]
    split
    next => rfl
    next =>
      rw [ih, Option.map_map, Option.map_map]
      rfl

variable [Named α] {name : String} {before after : List α}

/-- The sibling `a` at position `i`, which the name finds, has become `b`, which the name finds
there; every other sibling is as it was. -/
structure EditedAt (name : String) (i : Nat) (a b : α) (before after : List α) : Prop where
  found : (position? before name).map Fin.val = some i
  was : before[i]? = some a
  result : after = before.set i b
  foundAgain : (position? after name).map Fin.val = some i

/-- What the name finds has changed as `change` says, in its place, and nothing else has; where
the name finds nothing, nothing has changed. -/
inductive Edited (name : String) (change : α → α → Prop) (before : List α) : List α → Prop where
  | missed (h : named? before name = none) : Edited name change before before
  | changed {i : Nat} {a b : α} {after : List α} (h : EditedAt name i a b before after)
      (hchange : change a b) : Edited name change before after

theorem map_val_position? (siblings : List α) (name : String) :
    (position? siblings name).map Fin.val =
      siblings.findIdx? fun sibling => Name.same (Named.name sibling) name := by
  rw [position?, List.findIdx?_eq_map_findFinIdx?_val]

/-- A sibling that keeps its name is found where it was. -/
theorem editedAt_set {i : Nat} {a b : α} (hname : Named.name b = Named.name a)
    (hfound : (position? before name).map Fin.val = some i) (hwas : before[i]? = some a) :
    EditedAt name i a b before (before.set i b) where
  found := hfound
  was := hwas
  result := rfl
  foundAgain := by
    rw [map_val_position?] at hfound ⊢
    obtain ⟨hi, hsame, hbefore⟩ := List.findIdx?_eq_some_iff_getElem.mp hfound
    obtain ⟨hi', ha⟩ := List.getElem?_eq_some_iff.mp hwas
    refine List.findIdx?_eq_some_iff_getElem.mpr ⟨?_, ?_, fun j hj => ?_⟩
    · rw [List.length_set]
      exact hi
    · rw [List.getElem_set_self, hname, ← ha]
      exact hsame
    · rw [List.getElem_set_ne (Nat.ne_of_gt hj)]
      exact hbefore j hj

/-- **Edits by name.** What is made of the sibling that a name finds takes its place. -/
theorem edited_updateNamed? {f : α → Option α}
    (hname : ∀ a b, f a = some b → Named.name b = Named.name a) (before : List α) :
    Edited name (fun a b => b = (f a).getD a) before
      ((updateNamed? name f before).getD before) := by
  cases hnamed : named? before name with
  | none =>
    have hnone : updateNamed? name f before = none := by
      rw [updateNamed?, hnamed]
      rfl
    rw [hnone, Option.getD_none]
    exact .missed hnamed
  | some a =>
    -- the lookup of the value and that of the place are two searches for one sibling
    obtain ⟨i, hi, ha⟩ := Option.map_eq_some_iff.mp ((named?_eq_map_position? before name) ▸ hnamed)
    have hfound : (position? before name).map Fin.val = some i.val := by rw [hi, Option.map_some]
    have hwas : before[i.val]? = some a := by rw [← ha, List.getElem?_eq_getElem i.isLt]; rfl
    have hupdate : (updateNamed? name f before).getD before = before.set i ((f a).getD a) := by
      rw [updateNamed?, hnamed]
      show ((f a).bind fun b => modifyFirst? _ (fun _ => b) before).getD before = _
      simp only [modifyFirst?_const, ← map_val_position?, hfound, Option.map_some]
      cases f a with
      | none =>
        rw [Option.bind_none, Option.getD_none, Option.getD_none, ← ha]
        exact (List.set_getElem_self i.isLt).symm
      | some b => rfl
    rw [hupdate]
    refine .changed (editedAt_set ?_ hfound hwas) rfl
    cases hf : f a with
    | none => rfl
    | some b => exact hname a b hf

/-! ## What edits keep -/

theorem EditedAt.map_name {i : Nat} {a b : α} (h : EditedAt name i a b before after)
    (hname : Named.name b = Named.name a) : after.map Named.name = before.map Named.name := by
  obtain ⟨hi, ha⟩ := List.getElem?_eq_some_iff.mp h.was
  have hi' : i < (before.map Named.name).length := by rwa [List.length_map]
  have hat : (before.map Named.name)[i] = Named.name a := by rw [List.getElem_map, ha]
  rw [h.result, List.map_set, hname, ← hat]
  exact List.set_getElem_self hi'

variable {change : α → α → Prop}

theorem Edited.imp {change' : α → α → Prop} (h : Edited name change before after)
    (himp : ∀ a b, change a b → change' a b) : Edited name change' before after := by
  cases h with
  | missed hnone => exact .missed hnone
  | changed hat hchange => exact .changed hat (himp _ _ hchange)

/-- Where no sibling takes another name, names that differed still do. -/
theorem Edited.distinct (h : Edited name change before after)
    (hname : ∀ a b, change a b → Named.name b = Named.name a) (hbefore : Distinct before) :
    Distinct after := by
  cases h with
  | missed => exact hbefore
  | changed hat hchange =>
    have hnames := hat.map_name (hname _ _ hchange)
    have hfolded : ∀ siblings : List α, (siblings.map fun a => Name.fold (Named.name a)) =
        (siblings.map Named.name).map Name.fold := by
      intro siblings
      rw [List.map_map]
      rfl
    rw [distinct_iff_nodup, hfolded] at hbefore ⊢
    rw [hnames]
    exact hbefore

/-- What all siblings have, and what changes keeps, they all have still. -/
theorem Edited.forall {P : α → Prop} (h : Edited name change before after)
    (hchange : ∀ a b, change a b → P a → P b) (hbefore : ∀ a ∈ before, P a) :
    ∀ a ∈ after, P a := by
  cases h with
  | missed => exact hbefore
  | changed hat hab =>
    intro x hx
    rw [hat.result] at hx
    rcases List.mem_or_eq_of_mem_set hx with hx | rfl
    · exact hbefore x hx
    · exact hchange _ x hab (hbefore _ (List.mem_of_getElem? hat.was))

end Siblings

open Siblings (Edited edited_updateNamed?)

/-! ## Edits of entities -/

/-- The column of the given name has changed, and nothing else of the table. -/
def Table.ColumnEdited (column : String) (change : Column → Column → Prop)
    (before after : Table) : Prop :=
  after = { before with columns := after.columns } ∧
    Edited column change before.columns after.columns

/-- The table of the given name has changed, and nothing else of the schema. -/
def Schema.TableEdited (table : String) (change : Table → Table → Prop)
    (before after : Schema) : Prop :=
  after = { before with tables := after.tables } ∧
    Edited table change before.tables after.tables

/-- The schema of the given name has changed, and nothing else of the definition. -/
def Definition.SchemaEdited (schema : String) (change : Schema → Schema → Prop)
    (before after : Definition) : Prop :=
  after = { before with schemas := after.schemas } ∧
    Edited schema change before.schemas after.schemas

theorem Table.columnEdited_modifyColumn? (name : String) {f : Column → Option Column}
    (hname : ∀ c c', f c = some c' → c'.name = c.name) (t : Table) :
    t.ColumnEdited name (fun c c' => c' = (f c).getD c) ((t.modifyColumn? name f).getD t) := by
  have hparts : (t.modifyColumn? name f).getD t =
      { t with columns := (Siblings.updateNamed? name f t.columns).getD t.columns } :=
    Option.getD_map _ t.columns _
  rw [hparts]
  exact ⟨rfl, edited_updateNamed? hname t.columns⟩

theorem Table.name_of_modifyColumn? {name : String} {f : Column → Option Column} {t t' : Table}
    (h : t.modifyColumn? name f = some t') : t'.name = t.name := by
  obtain ⟨_, -, rfl⟩ := Option.map_eq_some_iff.mp h
  rfl

theorem Schema.tableEdited_modifyTable? (name : String) {f : Table → Option Table}
    (hname : ∀ t t', f t = some t' → t'.name = t.name) (s : Schema) :
    s.TableEdited name (fun t t' => t' = (f t).getD t) ((s.modifyTable? name f).getD s) := by
  have hparts : (s.modifyTable? name f).getD s =
      { s with tables := (Siblings.updateNamed? name f s.tables).getD s.tables } :=
    Option.getD_map _ s.tables _
  rw [hparts]
  exact ⟨rfl, edited_updateNamed? hname s.tables⟩

theorem Schema.name_of_modifyTable? {name : String} {f : Table → Option Table} {s s' : Schema}
    (h : s.modifyTable? name f = some s') : s'.name = s.name := by
  obtain ⟨_, -, rfl⟩ := Option.map_eq_some_iff.mp h
  rfl

theorem Definition.schemaEdited_modifySchema? (name : String) {f : Schema → Option Schema}
    (hname : ∀ s s', f s = some s' → s'.name = s.name) (d : Definition) :
    d.SchemaEdited name (fun s s' => s' = (f s).getD s) ((d.modifySchema? name f).getD d) := by
  have hparts : (d.modifySchema? name f).getD d =
      { d with schemas := (Siblings.updateNamed? name f d.schemas).getD d.schemas } :=
    Option.getD_map _ d.schemas _
  rw [hparts]
  exact ⟨rfl, edited_updateNamed? hname d.schemas⟩

/-! ## Edits that look for names -/

/-- The edit finds what it changes by name, or brings a layer without two siblings of one name. -/
def Edit.Orderly : Edit → Prop
  | overlay layer => layer.Unambiguous
  | addSchema _ | addTable _ _ | addColumn _ _ _ => False
  | ensureSchema _ | assignSchema _ _ | assignTable _ _ _ | assignColumn _ _ _ _ => True

theorem Definition.session_concat (edits : List Edit) (edit : Edit) :
    session (edits ++ [edit]) = edit.perform (session edits) := by
  rw [session, List.foldl_append]
  rfl

/-! ## Assignments -/

theorem Column.name_assign (c : Column) (value : Column.Assignment) :
    (c.assign value).name = c.name := by
  cases value <;> rfl

theorem Table.name_assign (t : Table) (value : Table.Assignment) :
    (t.assign value).name = t.name := by
  cases value <;> rfl

theorem Table.columns_assign (t : Table) (value : Table.Assignment) :
    (t.assign value).columns = t.columns := by
  cases value <;> rfl

theorem Schema.name_assign (s : Schema) (value : Schema.Assignment) :
    (s.assign value).name = s.name := by
  cases value <;> rfl

theorem Schema.tables_assign (s : Schema) (value : Schema.Assignment) :
    (s.assign value).tables = s.tables := by
  cases value <;> rfl

namespace Definition

variable (d : Definition) (schema table column : String)

/-- A value is given to a field of the schema that a name finds. -/
theorem schemaEdited_assignSchema (value : Schema.Assignment) :
    d.SchemaEdited schema (fun s s' => s' = s.assign value)
      (Edit.perform d (.assignSchema schema value)) := by
  refine schemaEdited_modifySchema? schema (fun s s' h => ?_) d
  obtain rfl := Option.some.inj h
  exact s.name_assign value

/-- A value is given to a field of the table that two names find. -/
theorem schemaEdited_assignTable (value : Table.Assignment) :
    d.SchemaEdited schema (Schema.TableEdited table fun t t' => t' = t.assign value)
      (Edit.perform d (.assignTable schema table value)) := by
  obtain ⟨hrest, hedited⟩ := schemaEdited_modifySchema? schema
    (f := Schema.modifyTable? table fun t => some (t.assign value))
    (fun _ _ h => Schema.name_of_modifyTable? h) d
  refine ⟨hrest, hedited.imp fun s s' h => ?_⟩
  rw [h]
  refine Schema.tableEdited_modifyTable? table (fun t t' h => ?_) s
  obtain rfl := Option.some.inj h
  exact t.name_assign value

/-- A value is given to a field of the column that three names find. -/
theorem schemaEdited_assignColumn (value : Column.Assignment) :
    d.SchemaEdited schema (Schema.TableEdited table
        (Table.ColumnEdited column fun c c' => c' = c.assign value))
      (Edit.perform d (.assignColumn schema table column value)) := by
  obtain ⟨hrest, hedited⟩ := schemaEdited_modifySchema? schema
    (f := Schema.modifyTable? table
      (Table.modifyColumn? column fun c => some (c.assign value)))
    (fun _ _ h => Schema.name_of_modifyTable? h) d
  refine ⟨hrest, hedited.imp fun s s' h => ?_⟩
  rw [h]
  obtain ⟨hrest, hedited⟩ := Schema.tableEdited_modifyTable? table
    (f := Table.modifyColumn? column fun c => some (c.assign value))
    (fun _ _ h => Table.name_of_modifyColumn? h) s
  refine ⟨hrest, hedited.imp fun t t' h => ?_⟩
  rw [h]
  refine Table.columnEdited_modifyColumn? column (fun c c' h => ?_) t
  obtain rfl := Option.some.inj h
  exact c.name_assign value

/-! ## Schemas that are asked for -/

variable {d} {name : String}

theorem ensureSchema_eq : d.ensureSchema name =
    if ∃ s ∈ d.schemas, Name.same s.name name then d else d.withSchema (Schema.empty name) := by
  have hsome : (d.schema? name).isSome ↔ ∃ s ∈ d.schemas, Name.same s.name name := by
    simp only [Name.same_iff]
    exact Siblings.isSome_named?_iff
  unfold ensureSchema
  simp only [hsome]

/-- Either way the name finds the schema afterwards. -/
theorem schema?_ensureSchema :
    (d.ensureSchema name).schema? name = some ((d.schema? name).getD (Schema.empty name)) := by
  unfold ensureSchema
  cases hfound : d.schema? name with
  | some s => exact hfound
  | none =>
    have hempty : Name.same (Schema.empty name).name name := Name.same_self name
    show (d.schemas ++ [Schema.empty name]).find? _ = _
    rw [List.find?_append, show d.schemas.find? _ = none from hfound, Option.none_or,
      List.find?_singleton]
    exact if_pos hempty

/-! ## Names stay apart -/

variable {before after layer : Definition} {schema table column}

namespace Unambiguous

theorem of_empty : empty.Unambiguous where
  schemas := List.Pairwise.nil
  tables _ h := absurd h List.not_mem_nil
  columns _ h := absurd h List.not_mem_nil

/-- A layer lands on what bears its names. -/
theorem overlay (hbase : before.Unambiguous) (hlayer : layer.Unambiguous) :
    (Overlay.overlay before layer).Unambiguous where
  schemas := hbase.schemas.overlay hlayer.schemas
  tables := forall_overlay hbase.tables hlayer.tables
    fun _ s hs hb _ => hb.overlay (hlayer.tables s hs)
  columns := by
    refine forall_overlay hbase.columns hlayer.columns fun b s hs hb _ => ?_
    exact forall_overlay hb (hlayer.columns s hs)
      fun _ t ht hcolumns _ => hcolumns.overlay (hlayer.columns s hs t ht)

/-- A schema that is asked for is added only where none bears the name. -/
theorem ensureSchema (h : d.Unambiguous) (name : String) : (d.ensureSchema name).Unambiguous := by
  rw [ensureSchema_eq]
  split
  next => exact h
  next hnone =>
    have hempty : Distinct (Schema.empty name).tables := List.Pairwise.nil
    refine ⟨?_, ?_, ?_⟩
    · refine List.pairwise_append.mpr ⟨h.schemas, List.pairwise_singleton _ _, ?_⟩
      intro s hs s' hs' hsame
      rw [List.mem_singleton.mp hs', sameAs_iff_name] at hsame
      exact hnone ⟨s, hs, Name.same_iff.mpr hsame⟩
    · exact List.forall_mem_append.mpr ⟨h.tables, List.forall_mem_singleton.mpr hempty⟩
    · refine List.forall_mem_append.mpr ⟨h.columns, List.forall_mem_singleton.mpr ?_⟩
      exact fun t ht => absurd ht List.not_mem_nil

/-- A schema changes without taking another name, and keeps the names in it apart. -/
theorem schemaEdited {change : Schema → Schema → Prop} (h : before.Unambiguous)
    (hedited : before.SchemaEdited schema change after)
    (hname : ∀ s s', change s s' → s'.name = s.name)
    (htables : ∀ s s', change s s' → Distinct s.tables → Distinct s'.tables)
    (hcolumns : ∀ s s', change s s' → (∀ t ∈ s.tables, Distinct t.columns) →
      ∀ t ∈ s'.tables, Distinct t.columns) : after.Unambiguous where
  schemas := hedited.2.distinct hname h.schemas
  tables := hedited.2.forall htables h.tables
  columns := hedited.2.forall hcolumns h.columns

/-- So does a table. -/
theorem tableEdited {change : Table → Table → Prop} (h : before.Unambiguous)
    (hedited : before.SchemaEdited schema (Schema.TableEdited table change) after)
    (hname : ∀ t t', change t t' → t'.name = t.name)
    (hcolumns : ∀ t t', change t t' → Distinct t.columns → Distinct t'.columns) :
    after.Unambiguous := by
  refine h.schemaEdited hedited (fun s s' hs => ?_) (fun s s' hs => ?_) fun s s' hs => ?_
  · rw [hs.1]
  · exact hs.2.distinct hname
  · exact hs.2.forall hcolumns

/-- An edit that looks for the name it is given keeps names apart. -/
theorem perform (h : d.Unambiguous) {edit : Edit} (hedit : edit.Orderly) :
    (edit.perform d).Unambiguous := by
  cases edit with
  | overlay layer => exact h.overlay hedit
  | addSchema => exact hedit.elim
  | ensureSchema name => exact h.ensureSchema name
  | assignSchema schema value =>
    refine h.schemaEdited (d.schemaEdited_assignSchema schema value) ?_ ?_ ?_
    · exact fun s s' hs => hs ▸ s.name_assign value
    · exact fun s s' hs hdistinct => by rw [hs, s.tables_assign value]; exact hdistinct
    · exact fun s s' hs hdistinct => by rw [hs, s.tables_assign value]; exact hdistinct
  | addTable => exact hedit.elim
  | assignTable schema table value =>
    refine h.tableEdited (d.schemaEdited_assignTable schema table value) ?_ ?_
    · exact fun t t' ht => ht ▸ t.name_assign value
    · exact fun t t' ht hdistinct => by rw [ht, t.columns_assign value]; exact hdistinct
  | addColumn => exact hedit.elim
  | assignColumn schema table column value =>
    refine h.tableEdited (d.schemaEdited_assignColumn schema table column value) ?_ ?_
    · exact fun t t' ht => by rw [ht.1]
    · exact fun t t' ht => ht.2.distinct fun c c' hc => hc ▸ c.name_assign value

theorem session {edits : List Edit} (h : ∀ edit ∈ edits, edit.Orderly) :
    (session edits).Unambiguous := by
  induction edits using List.reverseRecOn with
  | nil => exact of_empty
  | append_singleton edits edit ih =>
    rw [session_concat]
    exact (ih fun e he => h e (by simp [he])).perform (h edit (by simp))

end Unambiguous

/-! ## The theorem -/

/-- **Names stay apart in sessions.** Wherever a session has come to, no two schemas, no two
tables of a schema and no two columns of a table bear one name. From there, an assignment
changes what its names find, in the place where they find it before and after, and nothing
else; and a schema that is asked for is added, with nothing in it, exactly where none bears
the name. -/
theorem session_unambiguous {edits : List Edit} (h : ∀ edit ∈ edits, edit.Orderly) :
    (session edits).Unambiguous ∧
    (∀ schema value, (session edits).SchemaEdited schema (fun s s' => s' = s.assign value)
      (session (edits ++ [.assignSchema schema value]))) ∧
    (∀ schema table value, (session edits).SchemaEdited schema
      (Schema.TableEdited table fun t t' => t' = t.assign value)
      (session (edits ++ [.assignTable schema table value]))) ∧
    (∀ schema table column value, (session edits).SchemaEdited schema
      (Schema.TableEdited table (Table.ColumnEdited column fun c c' => c' = c.assign value))
      (session (edits ++ [.assignColumn schema table column value]))) ∧
    ∀ name, session (edits ++ [.ensureSchema name]) =
        (if ∃ s ∈ (session edits).schemas, Name.same s.name name then session edits
          else (session edits).withSchema (Schema.empty name)) ∧
      (session (edits ++ [.ensureSchema name])).schema? name =
        some (((session edits).schema? name).getD (Schema.empty name)) := by
  simp only [session_concat]
  refine ⟨.session h, schemaEdited_assignSchema _, schemaEdited_assignTable _,
    schemaEdited_assignColumn _, fun name => ⟨?_, ?_⟩⟩
  · exact ensureSchema_eq
  · exact schema?_ensureSchema

/-- A schema comes with a layer, is asked for in another case and is landed on in a third; a table
is looked for in a schema that has none. -/
def signup : List Edit :=
  [.overlay
    { schemas :=
        [{ name := "Shop", tables := [{ name := "Users", columns := [.typed "id" "int"] }] }] },
   .ensureSchema "SHOP",
   .ensureSchema "log",
   .overlay
    { schemas :=
        [{ name := "shop"
           tables :=
            [{ name := "USERS", columns := [.proxy "ID", .typed "mail" "text"] },
             .empty "orders"] }] },
   .assignTable "log" "users" (.owner "bob"),
   .assignColumn "shop" "users" "MAIL" (.nullable false)]

theorem session_unambiguous_signup :
    (∀ edit ∈ signup, edit.Orderly) ∧ (session signup).Unambiguous ∧
      (session signup).schemas.map (fun s => (s.name, s.tables.map fun t =>
          (t.name, t.columns.map fun c => (c.name, c.nullable)))) =
        [("Shop", [("Users", [("ID", true), ("mail", false)]), ("orders", [])]), ("log", [])] ∧
      session (signup ++ [.ensureSchema "Log"]) = session signup ∧
      (session (signup ++ [.ensureSchema "audit"])).schemas.length = 3 := by
  have horderly : ∀ edit ∈ signup, edit.Orderly := by
    simp only [signup, List.forall_mem_cons, Edit.Orderly, true_and]
    refine ⟨⟨?_, ?_, ?_⟩, ⟨?_, ?_, ?_⟩, List.forall_mem_nil _⟩ <;> decide +kernel
  obtain ⟨hunambiguous, -, -, -, hensure⟩ := session_unambiguous horderly
  refine ⟨horderly, hunambiguous, by decide +kernel, ?_, ?_⟩
  · rw [(hensure "Log").1, if_pos (by decide +kernel)]
  · rw [(hensure "audit").1, if_neg (by decide +kernel)]
    decide +kernel

end Definition

end LayeredSchema
