import LayeredSchema.Edit
import LayeredSchema.Proofs.Overlay.Kinds
import Mathlib.Data.List.Induction

/-!
# Last writer wins

What a table found by its names in a stack of documents owes to which of them.
Looking a table up and laying documents over each other commute: the table found
is what the tables found in the documents come to, each laid over the ones
before (`table?_stack`, from `table?_overlay` for one document). So everything
about paths is in that one equation, and the rest is about tables alone.

There the invariant is `LastWriterWins declared found`: what `found` says of
itself is what the last of the tables `declared` says, its grants are all of
theirs, and each column, index and constraint is that of the last table which
has one of the name. One table more keeps it (`LastWriterWins.step`), hence a
whole stack has it (`stack_lastWriterWins`).
-/

namespace LayeredSchema

/-! ## Choosing from one list element more -/

section Concat

variable {α β : Type} {f : α → Option β} {l : List α} {a : α}

theorem filterMap_concat : (l ++ [a]).filterMap f = l.filterMap f ++ (f a).toList := by
  rw [List.filterMap_append]
  cases h : f a with
  | none => rw [List.filterMap_cons_none h]; rfl
  | some b => rw [List.filterMap_cons_some h]; rfl

theorem getLast?_filterMap_concat :
    ((l ++ [a]).filterMap f).getLast? = (f a).or (l.filterMap f).getLast? := by
  rw [filterMap_concat, List.getLast?_append]
  cases f a <;> rfl

end Concat

/-! ## Lookups by path -/

/-- No two columns, no two indexes and no two constraints of the table are the same. -/
structure Table.PartsDistinct (t : Table) : Prop where
  columns : Siblings.Distinct t.columns
  indexes : Siblings.Distinct t.indexes
  constraints : Siblings.Distinct t.constraints

/-- No two schemas, no two tables of one schema and no two columns, indexes or
constraints of one table are the same. -/
structure Definition.PathsDistinct (d : Definition) : Prop where
  schemas : Siblings.Distinct d.schemas
  tables : ∀ s ∈ d.schemas, Siblings.Distinct s.tables
  parts : ∀ s ∈ d.schemas, ∀ t ∈ s.tables, t.PartsDistinct

namespace Schema

theorem table?_overlay {base layer : Schema} (h : Siblings.Distinct layer.tables)
    (name : String) :
    (Overlay.overlay base layer).table? name =
      Option.merge Overlay.overlay (base.table? name) (layer.table? name) :=
  Siblings.named?_overlay h name

end Schema

namespace Definition

theorem schema?_overlay {base layer : Definition} (h : layer.PathsDistinct) (name : String) :
    (Overlay.overlay base layer).schema? name =
      Option.merge Overlay.overlay (base.schema? name) (layer.schema? name) :=
  Siblings.named?_overlay h.schemas name

theorem table?_eq_bind {d : Definition} {schema table : String} :
    d.table? schema table = (d.schema? schema).bind fun s => s.table? table := rfl

theorem PathsDistinct.partsDistinct {d : Definition} (h : d.PathsDistinct)
    {schema table : String} {t : Table} (ht : d.table? schema table = some t) :
    t.PartsDistinct := by
  rw [table?_eq_bind] at ht
  obtain ⟨s, hs, ht⟩ := Option.bind_eq_some_iff.mp ht
  exact h.parts s (Siblings.named?_eq_some hs).1 t (Siblings.named?_eq_some ht).1

/-- Two names lead to the table of the layer laid over that of the base, or to
the one that is there. -/
theorem table?_overlay {base layer : Definition} (h : layer.PathsDistinct)
    (schema table : String) :
    (Overlay.overlay base layer).table? schema table =
      Option.merge Overlay.overlay (base.table? schema table) (layer.table? schema table) := by
  rw [table?_eq_bind, table?_eq_bind, table?_eq_bind, schema?_overlay h]
  cases hbase : base.schema? schema with
  | none => rw [Option.merge_none_left, Option.bind_none, Option.merge_none_left]
  | some b =>
    cases hlayer : layer.schema? schema with
    | none => rw [Option.merge_none_right, Option.bind_none, Option.merge_none_right]
    | some l =>
      rw [Option.merge_some_some]
      exact Schema.table?_overlay (h.tables l (Siblings.named?_eq_some hlayer).1) table

end Definition

/-! ## Stacks of tables -/

namespace Table

/-- What tables come to, each laid over the ones before it. -/
def stack? : List Table → Option Table
  | [] => none
  | base :: layers => some (layers.foldl Overlay.overlay base)

theorem stack?_concat {declared : List Table} {layer : Table} :
    stack? (declared ++ [layer]) = Option.merge Overlay.overlay (stack? declared) (some layer) := by
  cases declared with
  | nil => rfl
  | cons base layers =>
    rw [List.cons_append, stack?, stack?, List.foldl_append, Option.merge_some_some]
    rfl

theorem isSome_stack?_iff {declared : List Table} : (stack? declared).isSome ↔ declared ≠ [] := by
  cases declared with
  | nil => simp [stack?]
  | cons base layers => simp [stack?]

end Table

namespace Definition

theorem stack_concat {documents : List Definition} (hne : documents ≠ []) {layer : Definition} :
    stack (documents ++ [layer]) = Overlay.overlay (stack documents) layer := by
  cases documents with
  | nil => exact absurd rfl hne
  | cons base layers =>
    rw [List.cons_append, stack, stack, List.foldl_append]
    rfl

/-- **Lookups commute with stacking.** -/
theorem table?_stack {documents : List Definition} (h : ∀ d ∈ documents, d.PathsDistinct)
    (schema table : String) :
    (stack documents).table? schema table =
      Table.stack? (documents.filterMap fun d => d.table? schema table) := by
  induction documents using List.reverseRecOn with
  | nil => rfl
  | append_singleton documents layer ih =>
    have hlayer : layer.PathsDistinct := h layer (by simp)
    have hdocuments : ∀ d ∈ documents, d.PathsDistinct := fun d hd => h d (by simp [hd])
    have hlast : (stack (documents ++ [layer])).table? schema table =
        Option.merge Overlay.overlay ((stack documents).table? schema table)
          (layer.table? schema table) := by
      by_cases hne : documents = []
      · -- the first document is laid over nothing
        subst hne
        exact Option.merge_none_left.symm
      · rw [stack_concat hne, table?_overlay hlayer]
    rw [hlast, ih hdocuments, filterMap_concat]
    cases layer.table? schema table with
    | none => rw [Option.merge_none_right, Option.toList_none, List.append_nil]
    | some t => rw [Option.toList_some, Table.stack?_concat]

end Definition

/-! ## What a table owes to which declaration -/

namespace Table

/-- The table as it is found: what it says of itself is what the last of the
tables declared says, but for its name; of its parts each is that of the last
table which has it. -/
structure LastWriterWins (declared : List Table) (found : Table) : Prop where
  name : declared.head?.map Table.name = some found.name
  owner : declared.getLast?.map Table.owner = some found.owner
  description : declared.getLast?.map Table.description = some found.description
  primaryKey : declared.getLast?.map Table.primaryKey = some found.primaryKey
  primaryKeyName : declared.getLast?.map Table.primaryKeyName = some found.primaryKeyName
  clusterIndex : declared.getLast?.map Table.clusterIndex = some found.clusterIndex
  parentSchema : declared.getLast?.map Table.parentSchema = some found.parentSchema
  parentTable : declared.getLast?.map Table.parentTable = some found.parentTable
  foreignKeys : declared.getLast?.map Table.foreignKeys = some found.foreignKeys
  grants : found.grants = declared.flatMap Table.grants
  column? : ∀ name, found.column? name =
    (declared.filterMap fun t => t.column? name).getLast?
  index? : ∀ name, found.index? name =
    (declared.filterMap fun t => t.index? name).getLast?
  constraint? : ∀ name, found.constraint? name =
    (declared.filterMap fun t => t.constraint? name).getLast?

/-- Of the parts that are replaced as a whole, a name finds that of the layer
first. -/
theorem named?_overlay_replacing {α : Type} [Named α] [Overlay α] [LawfulOverlay α]
    (hreplace : ∀ base layer : α, Overlay.overlay base layer = layer) {base layer : List α}
    (h : Siblings.Distinct layer) (name : String) :
    Siblings.named? (Siblings.overlay base layer) name =
      (Siblings.named? layer name).or (Siblings.named? base name) := by
  rw [Siblings.named?_overlay h]
  cases Siblings.named? base name with
  | none => rw [Option.merge_none_left, Option.or_none]
  | some b =>
    cases Siblings.named? layer name with
    | none => rw [Option.merge_none_right, Option.none_or]
    | some l => rw [Option.merge_some_some, hreplace, Option.some_or]

theorem column?_overlay {base layer : Table} (h : layer.PartsDistinct) (name : String) :
    (Overlay.overlay base layer).column? name = (layer.column? name).or (base.column? name) :=
  named?_overlay_replacing (fun _ _ => rfl) h.columns name

theorem index?_overlay {base layer : Table} (h : layer.PartsDistinct) (name : String) :
    (Overlay.overlay base layer).index? name = (layer.index? name).or (base.index? name) :=
  named?_overlay_replacing (fun _ _ => rfl) h.indexes name

theorem constraint?_overlay {base layer : Table} (h : layer.PartsDistinct) (name : String) :
    (Overlay.overlay base layer).constraint? name =
      (layer.constraint? name).or (base.constraint? name) :=
  named?_overlay_replacing (fun _ _ => rfl) h.constraints name

theorem lastWriterWins_singleton (t : Table) : LastWriterWins [t] t where
  name := rfl
  owner := rfl
  description := rfl
  primaryKey := rfl
  primaryKeyName := rfl
  clusterIndex := rfl
  parentSchema := rfl
  parentTable := rfl
  foreignKeys := rfl
  grants := by rw [List.flatMap_cons, List.flatMap_nil, List.append_nil]
  column? name := by
    rw [← List.nil_append [t], getLast?_filterMap_concat]
    exact Option.or_none.symm
  index? name := by
    rw [← List.nil_append [t], getLast?_filterMap_concat]
    exact Option.or_none.symm
  constraint? name := by
    rw [← List.nil_append [t], getLast?_filterMap_concat]
    exact Option.or_none.symm

/-- One table more is the last writer of all that it declares. -/
theorem LastWriterWins.step {declared : List Table} {found layer : Table}
    (h : LastWriterWins declared found) (hlayer : layer.PartsDistinct) :
    LastWriterWins (declared ++ [layer]) (Overlay.overlay found layer) where
  name := by
    obtain ⟨first, hfirst, hname⟩ := Option.map_eq_some_iff.mp h.name
    rw [List.head?_append, hfirst, Option.some_or, Option.map_some, hname]
    rfl
  owner := by rw [List.getLast?_concat]; rfl
  description := by rw [List.getLast?_concat]; rfl
  primaryKey := by rw [List.getLast?_concat]; rfl
  primaryKeyName := by rw [List.getLast?_concat]; rfl
  clusterIndex := by rw [List.getLast?_concat]; rfl
  parentSchema := by rw [List.getLast?_concat]; rfl
  parentTable := by rw [List.getLast?_concat]; rfl
  foreignKeys := by rw [List.getLast?_concat]; rfl
  grants := by
    rw [List.flatMap_append, ← h.grants, List.flatMap_cons, List.flatMap_nil, List.append_nil]
    rfl
  column? name := by rw [getLast?_filterMap_concat, ← h.column?, column?_overlay hlayer]
  index? name := by rw [getLast?_filterMap_concat, ← h.index?, index?_overlay hlayer]
  constraint? name := by
    rw [getLast?_filterMap_concat, ← h.constraint?, constraint?_overlay hlayer]

/-- What tables come to has of each the last word. -/
theorem stack?_lastWriterWins {declared : List Table} (h : ∀ t ∈ declared, t.PartsDistinct)
    {found : Table} (hfound : stack? declared = some found) :
    LastWriterWins declared found := by
  induction declared using List.reverseRecOn generalizing found with
  | nil => exact absurd hfound (by simp [stack?])
  | append_singleton declared layer ih =>
    have hlayer : layer.PartsDistinct := h layer (by simp)
    rw [stack?_concat] at hfound
    by_cases hnil : declared = []
    · -- the first table declared is found as it is
      subst hnil
      obtain rfl : layer = found := Option.some.inj hfound
      exact lastWriterWins_singleton layer
    · obtain ⟨before, hbefore⟩ := Option.isSome_iff_exists.mp (isSome_stack?_iff.mpr hnil)
      rw [hbefore, Option.merge_some_some, Option.some.injEq] at hfound
      rw [← hfound]
      exact (ih (fun t ht => h t (by simp [ht])) hbefore).step hlayer

end Table

/-! ## The theorem -/

namespace Definition

/-- **Last writer wins on every path.** Two names lead to a table of a stack of
documents exactly if they lead to one of some document, and that table is what
the tables they lead to say together, the last one deciding. -/
theorem stack_lastWriterWins {documents : List Definition}
    (h : ∀ d ∈ documents, d.PathsDistinct) (schema table : String) :
    (((stack documents).table? schema table).isSome ↔
      ∃ d ∈ documents, (d.table? schema table).isSome) ∧
    ∀ found, (stack documents).table? schema table = some found →
      Table.LastWriterWins (documents.filterMap fun d => d.table? schema table) found := by
  rw [table?_stack h]
  constructor
  · rw [Table.isSome_stack?_iff, Ne, List.filterMap_eq_nil_iff]
    simp only [not_forall, ← Option.not_isSome_iff_eq_none, not_not, exists_prop]
  · intro found hfound
    refine Table.stack?_lastWriterWins (fun t ht => ?_) hfound
    obtain ⟨d, hd, hdt⟩ := List.mem_filterMap.mp ht
    exact (h d hd).partsDistinct hdt

/-- A table declared by the first document and, in another case, by the third. -/
def storefront : List Definition :=
  [{ schemas :=
      [{ name := "Shop"
         tables :=
          [{ name := "Users", owner := "alice", description := "accounts", primaryKey := ["id"]
             columns := [.typed "id" "int", .typed "name" "text"]
             indexes := [{ name := "by_name" }]
             foreignKeys := [{ columns := ["name"], foreignTable := "names", name := "named" }] }] }] },
   { schemas := [{ name := "shop", owner := "bob" }, { name := "log", tables := [.empty "Users"] }] },
   { schemas :=
      [{ name := "SHOP"
         tables :=
          [{ name := "USERS", owner := "carol"
             columns := [.typed "NAME" "varchar", .typed "mail" "text"] }] }] }]

theorem stack_lastWriterWins_storefront :
    ∃ found, (stack storefront).table? "shop" "users" = some found ∧
      Table.LastWriterWins (storefront.filterMap fun d => d.table? "shop" "users") found ∧
      found.name = "Users" ∧ found.owner = "carol" ∧ found.description = "" ∧
      found.foreignKeys = [] ∧ found.column? "name" = some (.typed "NAME" "varchar") := by
  have hdistinct : ∀ d ∈ storefront, d.PathsDistinct := by
    have hschemas : ∀ d ∈ storefront, Siblings.Distinct d.schemas := by decide +kernel
    have htables : ∀ d ∈ storefront, ∀ s ∈ d.schemas, Siblings.Distinct s.tables := by
      decide +kernel
    have hcolumns : ∀ d ∈ storefront, ∀ s ∈ d.schemas, ∀ t ∈ s.tables,
        Siblings.Distinct t.columns := by decide +kernel
    have hindexes : ∀ d ∈ storefront, ∀ s ∈ d.schemas, ∀ t ∈ s.tables,
        Siblings.Distinct t.indexes := by decide +kernel
    have hconstraints : ∀ d ∈ storefront, ∀ s ∈ d.schemas, ∀ t ∈ s.tables,
        Siblings.Distinct t.constraints := by decide +kernel
    exact fun d hd => ⟨hschemas d hd, htables d hd, fun s hs t ht =>
      ⟨hcolumns d hd s hs t ht, hindexes d hd s hs t ht, hconstraints d hd s hs t ht⟩⟩
  obtain ⟨hdeclared, hwins⟩ := stack_lastWriterWins hdistinct "shop" "users"
  have hsome : ∃ d ∈ storefront, (d.table? "shop" "users").isSome := by decide +kernel
  obtain ⟨found, hfound⟩ := Option.isSome_iff_exists.mp (hdeclared.mpr hsome)
  have heval : ((stack storefront).table? "shop" "users").map
      (fun t => (t.name, t.owner, t.description, t.foreignKeys, t.column? "name")) =
        some ("Users", "carol", "", [], some (.typed "NAME" "varchar")) := by
    decide +kernel
  rw [hfound, Option.map_some, Option.some.injEq] at heval
  simp only [Prod.mk.injEq] at heval
  exact ⟨found, hfound, hwins found hfound, heval⟩

end Definition

end LayeredSchema
