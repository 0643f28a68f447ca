import LayeredSchema.Proofs.Order.Extension
import LayeredSchema.Proofs.Overlay.Position

/-!
# Layers that only add tables

A layer is *additive* if it lands on no table of the base: each of its schemas may
land on one of the base or be new, but brings tables only that this one does not
have. What comes of such a layer extends the base (`Additive.extends_overlay`), so
that everything that could be followed or ordered in the base still can be, with the
same outcome (`overlay_preserves`).

A layer may do more than that and still be additive: it may repeat itself, and what
it says of schemas, routines or types does not matter to references at all.
-/

namespace LayeredSchema.Definition

open Siblings (landing? landingAt landing?_eq_some_iff landingAt_eq_nil length_le_overlay
  alwaysSteady_of_trans)

/-- No table of the layer is the same as a table of the schema that its own schema lands
on. -/
def Additive (base layer : Definition) : Prop :=
  ∀ l ∈ layer.schemas, ∀ s ∈ base.schemas.find? (fun s => Identity.sameAs s l),
    ∀ t ∈ l.tables, ∀ b ∈ s.tables, ¬ Identity.sameAs b t

instance (base layer : Definition) : Decidable (base.Additive layer) :=
  inferInstanceAs (Decidable (∀ l ∈ layer.schemas,
    ∀ s ∈ base.schemas.find? (fun s => Identity.sameAs s l),
      ∀ t ∈ l.tables, ∀ b ∈ s.tables, ¬ Identity.sameAs b t))

variable {base layer : Definition} {i j : Nat} {s : Schema} {t : Table}

/-- Nothing lands on a table of the base. -/
theorem Additive.landedOn_eq_nil (h : base.Additive layer) (hs : base.schemas[i]? = some s)
    (ht : s.tables[j]? = some t) : base.landedOn i s j layer = [] := by
  refine landingAt_eq_nil ht fun u hu => ?_
  obtain ⟨l, hl, hul⟩ := List.mem_flatMap.mp hu
  obtain ⟨hlayer, hland⟩ := List.mem_filter.mp hl
  obtain ⟨s', hs', hsame, hbefore⟩ := landing?_eq_some_iff.mp (of_decide_eq_true hland)
  obtain rfl : s' = s := Option.some.inj (hs'.symm.trans hs)
  -- the schema in which it lands is the first that is the same
  obtain ⟨hi, rfl⟩ := List.getElem?_eq_some_iff.mp hs
  have hfind : base.schemas.find? (fun s => Identity.sameAs s l) = some base.schemas[i] := by
    refine List.find?_eq_some_iff_getElem.mpr ⟨hsame, i, hi, rfl, fun j hj => ?_⟩
    have hjlt : j < base.schemas.length := Nat.lt_trans hj hi
    simpa using hbefore j hj _ (List.getElem?_eq_getElem hjlt)
  exact h l hlayer _ hfind u hul t (List.mem_of_getElem? ht)

/-- **Additive layers extend.** -/
theorem Additive.extends_overlay (h : base.Additive layer) :
    base.Extends (Overlay.overlay base layer) := by
  have hlength : base.schemas.length ≤ (Overlay.overlay base layer).schemas.length :=
    length_le_overlay (alwaysSteady_of_trans layer.schemas)
  -- what is true of the successor of a schema, wherever it was found
  have hsucc : ∀ s : Fin base.schemas.length,
      ((Overlay.overlay base layer).schemas.get (s.castLE hlength)).name =
        (base.schemas.get s).name ∧
      (base.schemas.get s).tables <+:
        ((Overlay.overlay base layer).schemas.get (s.castLE hlength)).tables := by
    intro s
    have hs : base.schemas[s.val]? = some (base.schemas.get s) :=
      List.getElem?_eq_getElem s.isLt
    have hr := schema_overlay layer hs
    have hget : (Overlay.overlay base layer).schemas.get (s.castLE hlength) =
        (landingAt base.schemas s layer.schemas).foldl Overlay.overlay (base.schemas.get s) :=
      (List.getElem?_eq_some_iff.mp hr).2
    rw [hget]
    refine ⟨Schema.name_foldl_overlay, List.prefix_iff_getElem?.mpr fun j hj => ?_⟩
    have ht : (base.schemas.get s).tables[j]? = some (base.schemas.get s).tables[j] :=
      List.getElem?_eq_getElem hj
    obtain ⟨r, hr', -, hu⟩ := table_overlay layer hs ht
    obtain rfl := Option.some.inj (hr.symm.trans hr')
    rw [hu, h.landedOn_eq_nil hs ht, List.foldl_nil]
  exact ⟨hlength, fun s => (hsucc s).1, fun s => (hsucc s).2⟩

/-! ## What is preserved -/

/-- A definition in a larger one: its tables and columns have their places and their contents,
every reference that could be followed leads where it led, and the tables are created in the
order in which they were. -/
structure Extends.Preserves {d more : Definition} (h : d.Extends more) : Prop where
  table : ∀ t : TableSlot d, (h.lift t).schemaAt.val = t.schemaAt ∧
    (h.lift t).tableAt.val = t.tableAt ∧ (h.lift t).table = t.table ∧
    (h.lift t).qualifiedName = t.qualifiedName
  column : ∀ c : ColumnSlot d, (h.liftColumn c).owner = h.lift c.owner ∧
    (h.liftColumn c).columnAt.val = c.columnAt ∧ (h.liftColumn c).column = c.column
  resolveTable : ∀ (home : Fin d.schemas.length) (schema table : String) (t : TableSlot d),
    d.resolveTable home schema table = .ok t →
      more.resolveTable (h.schemaAt home) schema table = .ok (h.lift t)
  constraintTarget : ∀ (t u : TableSlot d) (constraint : Constraint),
    t.constraintTarget constraint = .ok u →
      (h.lift t).constraintTarget constraint = .ok (h.lift u)
  inheritedColumn : ∀ (t : TableSlot d) (name : String) (c : Option (ColumnSlot d)),
    t.inheritedColumn? name = .ok c →
      (h.lift t).inheritedColumn? name = .ok (c.map h.liftColumn)
  columnKey : ∀ (c : ColumnSlot d) (k : Key d), c.targetKey = .ok k →
    (h.liftColumn c).targetKey = .ok (h.liftKey k)
  tableKey : ∀ (t : TableSlot d) (fk : ForeignKey) (k : Key d), t.targetKey fk = .ok k →
    (h.lift t).targetKey fk = .ok (h.liftKey k)
  terminal : ∀ c u : ColumnSlot d, c.terminal = .ok u →
    (h.liftColumn c).terminal = .ok (h.liftColumn u)
  creationOrder : ∀ (options : OrderOptions) (order : List (TableSlot d))
    (orderMore : List (TableSlot more)), d.creationOrder options = .ok order →
      more.creationOrder options = .ok orderMore →
        (orderMore.filter fun u => u ∈ d.tableSlots.map h.lift) = order.map h.lift

theorem Extends.preserves {d more : Definition} (h : d.Extends more) : h.Preserves where
  table t := by
    refine ⟨rfl, rfl, h.table_lift t, ?_⟩
    rw [TableSlot.qualifiedName, h.schema_name_lift, h.table_lift]
    rfl
  column c := ⟨rfl, rfl, h.column_liftColumn c⟩
  resolveTable _ _ _ _ := h.findTable_lift
  constraintTarget _ _ _ := h.embedding.constraintTarget_table
  inheritedColumn _ _ _ := h.embedding.inheritedColumn?_table
  columnKey _ _ := h.embedding.targetKey_column
  tableKey _ _ _ := h.embedding.targetKey_table
  terminal _ _ := h.embedding.terminal_column
  creationOrder _ _ _ := h.filter_creationOrder

/-- **Additive layers preserve.** With an additive layer laid over it, everything that could
be followed in a definition leads to the same place, and its tables keep their order. -/
theorem overlay_preserves (h : base.Additive layer) :
    ∃ ext : base.Extends (Overlay.overlay base layer), ext.Preserves :=
  ⟨h.extends_overlay, h.extends_overlay.preserves⟩

/-- Orders that refer to customers. -/
def shop : Definition where
  schemas :=
    [{ name := "shop"
       tables :=
        [{ name := "orders"
           columns := [.typed "id" "int", (Column.proxy "customer").references "" "Customers" "ID"] },
         { name := "customers", columns := [.typed "id" "int"] }] }]

/-- Tables on which nothing of the shop depends, in its schema and in another one, and a table
that depends on its orders. -/
def annex : Definition where
  schemas :=
    [{ name := "SHOP"
       tables :=
        [{ name := "regions", columns := [.typed "id" "int"] },
         { name := "returns", columns := [(Column.proxy "order").references "" "orders" "id"] }] },
     { name := "stock", tables := [{ name := "customers" }] }]

theorem overlay_preserves_annex :
    shop.Additive annex ∧ ∃ ext : shop.Extends (Overlay.overlay shop annex), ext.Preserves ∧
      ∃ order orderMore, shop.creationOrder {} = .ok order ∧
        (Overlay.overlay shop annex).creationOrder {} = .ok orderMore ∧
        orderMore.map TableSlot.qualifiedName =
          ["shop.customers", "shop.regions", "stock.customers", "shop.orders", "shop.returns"] ∧
        (orderMore.filter fun u => u ∈ shop.tableSlots.map ext.lift) = order.map ext.lift := by
  have hadditive : shop.Additive annex := by decide +kernel
  obtain ⟨ext, hext⟩ := overlay_preserves hadditive
  have hshop : (shop.creationOrder {}).toOption.isSome = true := by decide +kernel
  have hmore : ((Overlay.overlay shop annex).creationOrder {}).toOption.map
      (·.map TableSlot.qualifiedName) = some
        ["shop.customers", "shop.regions", "stock.customers", "shop.orders", "shop.returns"] := by
    decide +kernel
  obtain ⟨order, horder⟩ := Option.isSome_iff_exists.mp hshop
  obtain ⟨orderMore, horderMore, hnames⟩ := Option.map_eq_some_iff.mp hmore
  have hd := eq_ok_of_toOption horder
  have hm := eq_ok_of_toOption horderMore
  exact ⟨hadditive, ext, hext, order, orderMore, hd, hm, hnames, hext.creationOrder _ _ _ hd hm⟩

end LayeredSchema.Definition
