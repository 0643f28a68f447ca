import LayeredSchema.Proofs.Overlay.Additions
import LayeredSchema.Proofs.Overlay.Distinct
import LayeredSchema.Proofs.Overlay.Kinds

/-!
# Layers laid over each other first

Two layers may be laid over each other before they are laid over a base. The
law for siblings is `Siblings.overlay_regroup`: it goes by recursion over the
base, and what makes the recursion work is that choosing siblings by what they
are the same as commutes with laying layers over them (`filter_overlay`). From
there it climbs from kind to kind, each by the law of its parts
(`Table.overlay_regroup` up to `Definition.overlay_regroup`).

Routines and rows are left out. Two routines that differ may both be the same as
a third, so that a routine of the last layer can land on another one when the
layers are laid over each other first; and what lands on a row depends on the
primary key, which every layer may change.
-/

namespace LayeredSchema

namespace Siblings

variable {α : Type} [Identity α] [Overlay α]

@[simp] theorem overlay_empty (base : List α) : overlay base [] = base := by
  simp [overlay]

theorem overlay_singleton {b child : α} (h : Identity.sameAs b child) :
    overlay [b] [child] = [Overlay.overlay b child] := by
  rw [overlay, List.foldl_cons, List.foldl_nil, land_cons_of_same h]
  rfl

variable [LawfulOverlay α] [TransIdentity α]

/-- In a transitive kind, a sibling stays the same as what it was the same as while
it takes children, and becomes the same as nothing else. -/
theorem sameAs_foldl_overlay_of_trans {b : α} {taken : List α}
    (h : ∀ child ∈ taken, Identity.sameAs b child) :
    Identity.sameAs (taken.foldl Overlay.overlay b) = Identity.sameAs b := by
  funext y
  rw [Bool.eq_iff_iff, sameAs_foldl_overlay h, or_iff_left_iff_imp]
  intro htaken
  obtain ⟨child, hchild, hy⟩ := htaken
  exact TransIdentity.trans (h child hchild) hy

/-- A question that things which are the same answer alike is answered alike by a
sibling before and after it takes children. -/
theorem apply_foldl_overlay {p : α → Bool} (hp : ∀ a b : α, Identity.sameAs a b → p a = p b)
    {b : α} {taken : List α} (h : ∀ child ∈ taken, Identity.sameAs b child) :
    p (taken.foldl Overlay.overlay b) = p b := by
  cases taken with
  | nil => rfl
  | cons child taken =>
    have hchild := h child List.mem_cons_self
    have hself : Identity.sameAs b b := TransIdentity.trans hchild (SymmIdentity.symm hchild)
    refine hp _ b ?_
    rw [sameAs_foldl_overlay_of_trans h]
    exact hself

/-- Choosing siblings commutes with laying a layer over them, as long as things that
are the same are chosen together. -/
theorem filter_overlay {p : α → Bool} (hp : ∀ a b : α, Identity.sameAs a b → p a = p b)
    (base layer : List α) :
    (overlay base layer).filter p = overlay (base.filter p) (layer.filter p) := by
  induction base generalizing layer with
  | nil => rw [overlay_nil, List.filter_nil, overlay_nil]
  | cons b rest ih =>
    have htaken : ∀ child ∈ layer.filter (Identity.sameAs b), Identity.sameAs b child :=
      fun child hchild => (List.mem_filter.mp hchild).2
    rw [overlay_cons (steady_of_trans b layer), List.filter_cons, apply_foldl_overlay hp htaken, ih]
    by_cases hpb : p b
    · -- the sibling is chosen, and so is all that it takes
      have htake : (layer.filter p).filter (Identity.sameAs b) =
          layer.filter (Identity.sameAs b) := by
        rw [List.filter_filter]
        refine List.filter_congr fun child _ => ?_
        cases hbc : Identity.sameAs b child with
        | false => rfl
        | true => rw [← hp b child hbc, hpb, Bool.and_self]
      have hleave : (layer.filter fun child => !Identity.sameAs b child).filter p =
          (layer.filter p).filter fun child => !Identity.sameAs b child := by
        rw [List.filter_filter, List.filter_filter]
        exact List.filter_congr fun child _ => Bool.and_comm _ _
      rw [if_pos hpb, List.filter_cons_of_pos hpb, overlay_cons (steady_of_trans b _), htake,
        hleave]
    · -- it is not, and nothing that is chosen was taken by it
      have hleave : (layer.filter fun child => !Identity.sameAs b child).filter p =
          layer.filter p := by
        rw [List.filter_filter]
        refine List.filter_congr fun child _ => ?_
        cases hbc : Identity.sameAs b child with
        | false => rw [Bool.not_false, Bool.and_true]
        | true => rw [← hp b child hbc, Bool.eq_false_iff.mpr hpb, Bool.false_and]
      rw [if_neg hpb, List.filter_cons_of_neg hpb, hleave]

/-- **Layers of siblings can be regrouped**, if the layers over each sibling can. -/
theorem overlay_regroup {a b c : List α} (hb : Distinct b) (hc : Distinct c)
    (h : ∀ x ∈ a, ∀ y ∈ b, ∀ z ∈ c,
      Overlay.overlay x (Overlay.overlay y z) = Overlay.overlay (Overlay.overlay x y) z) :
    overlay a (overlay b c) = overlay (overlay a b) c := by
  induction a generalizing b c with
  | nil => rw [overlay_nil, overlay_nil]
  | cons x rest ih =>
    have hsame : ∀ y z : α, Identity.sameAs y z → Identity.sameAs x y = Identity.sameAs x z := by
      intro y z hyz
      rw [Bool.eq_iff_iff]
      exact ⟨fun hxy => TransIdentity.trans hxy hyz,
        fun hxz => TransIdentity.trans hxz (SymmIdentity.symm hyz)⟩
    have htaken : ∀ child ∈ b.filter (Identity.sameAs x), Identity.sameAs x child :=
      fun child hchild => (List.mem_filter.mp hchild).2
    -- what `x` does not take goes on to the rest, in both groupings
    have hrest := ih (hb.sublist (List.filter_sublist (p := fun y => !Identity.sameAs x y)))
      (hc.sublist (List.filter_sublist (p := fun z => !Identity.sameAs x z)))
      fun x' hx' y hy z hz => h x' (List.mem_cons_of_mem _ hx') y (List.mem_filter.mp hy).1 z
        (List.mem_filter.mp hz).1
    rw [overlay_cons (steady_of_trans x _), overlay_cons (steady_of_trans x b),
      overlay_cons (steady_of_trans _ c), sameAs_foldl_overlay_of_trans htaken,
      filter_overlay hsame, filter_overlay fun y z hyz => by rw [hsame y z hyz], hrest]
    congr 1
    -- what it takes is at most one sibling of each layer
    rcases filter_sameAs hb x with ⟨hnil, -⟩ | ⟨y, hy, hxy, hone⟩
    · rw [hnil, overlay_nil, List.foldl_nil]
    · rcases filter_sameAs hc x with ⟨hnil, -⟩ | ⟨z, hz, hxz, hone'⟩
      · rw [hnil, overlay_empty, List.foldl_nil]
      · have hyz : Identity.sameAs y z := TransIdentity.trans (SymmIdentity.symm hxy) hxz
        rw [hone, hone', overlay_singleton hyz]
        exact h x List.mem_cons_self y hy z hz

end Siblings

/-! ## Kind by kind -/

/-- The definition repeats nothing and has neither routines nor rows. -/
structure Definition.Plain (d : Definition) : Prop where
  siblings : d.SiblingsDistinct
  routines : ∀ s ∈ d.schemas, s.routines = []
  rows : ∀ s ∈ d.schemas, ∀ t ∈ s.tables, t.rows = none

instance (d : Definition) : Decidable d.Plain :=
  decidable_of_iff (d.SiblingsDistinct ∧ (∀ s ∈ d.schemas, s.routines = []) ∧
      ∀ s ∈ d.schemas, ∀ t ∈ s.tables, t.rows = none)
    ⟨fun ⟨hd, hr, hw⟩ => ⟨hd, hr, hw⟩, fun ⟨hd, hr, hw⟩ => ⟨hd, hr, hw⟩⟩

theorem Table.overlay_regroup {x y z : Table} (hy : y.SiblingsDistinct) (hz : z.SiblingsDistinct)
    (hyrows : y.rows = none) (hzrows : z.rows = none) :
    Overlay.overlay x (Overlay.overlay y z) = Overlay.overlay (Overlay.overlay x y) z := by
  have hoptions := Siblings.overlay_regroup (a := x.options) hy.options hz.options
    fun _ _ _ _ _ _ => rfl
  have hcolumns := Siblings.overlay_regroup (a := x.columns) hy.columns hz.columns
    fun _ _ _ _ _ _ => rfl
  have hindexes := Siblings.overlay_regroup (a := x.indexes) hy.indexes hz.indexes
    fun _ _ _ _ _ _ => rfl
  have hconstraints := Siblings.overlay_regroup (a := x.constraints) hy.constraints hz.constraints
    fun _ _ _ _ _ _ => rfl
  simp only [Overlay.overlay]
  rw [hoptions, hcolumns, hindexes, hconstraints, hyrows, hzrows, List.append_assoc]
  cases x.rows <;> rfl

theorem Sequence.overlay_regroup (x y z : Sequence) :
    Overlay.overlay x (Overlay.overlay y z) = Overlay.overlay (Overlay.overlay x y) z := by
  simp only [Overlay.overlay]
  rw [List.append_assoc]

theorem View.overlay_regroup {x y z : View} (hy : Siblings.Distinct y.queries)
    (hz : Siblings.Distinct z.queries) :
    Overlay.overlay x (Overlay.overlay y z) = Overlay.overlay (Overlay.overlay x y) z := by
  have hqueries := Siblings.overlay_regroup (a := x.queries) hy hz fun _ _ _ _ _ _ => rfl
  simp only [Overlay.overlay]
  rw [hqueries, List.append_assoc]

theorem Schema.overlay_regroup {x y z : Schema} (hy : y.SiblingsDistinct)
    (hz : z.SiblingsDistinct) (hyroutines : y.routines = []) (hzroutines : z.routines = [])
    (hyrows : ∀ t ∈ y.tables, t.rows = none) (hzrows : ∀ t ∈ z.tables, t.rows = none) :
    Overlay.overlay x (Overlay.overlay y z) = Overlay.overlay (Overlay.overlay x y) z := by
  have htables := Siblings.overlay_regroup (a := x.tables) hy.tables hz.tables
    fun _ _ t ht u hu =>
      Table.overlay_regroup (hy.parts t ht) (hz.parts u hu) (hyrows t ht) (hzrows u hu)
  have htypes := Siblings.overlay_regroup (a := x.types) hy.types hz.types
    fun _ _ _ _ _ _ => rfl
  have hsequences := Siblings.overlay_regroup (a := x.sequences) hy.sequences hz.sequences
    fun _ _ _ _ _ _ => Sequence.overlay_regroup _ _ _
  have htriggers := Siblings.overlay_regroup (a := x.triggers) hy.triggers hz.triggers
    fun _ _ _ _ _ _ => rfl
  have hviews := Siblings.overlay_regroup (a := x.views) hy.views hz.views
    fun _ _ v hv w hw => View.overlay_regroup (hy.queries v hv) (hz.queries w hw)
  simp only [Overlay.overlay]
  rw [htables, htypes, hsequences, htriggers, hviews, hyroutines, hzroutines, List.append_assoc]
  simp only [Siblings.overlay_empty]

theorem Roles.overlay_regroup (x y z : Roles) :
    Overlay.overlay x (Overlay.overlay y z) = Overlay.overlay (Overlay.overlay x y) z := by
  simp only [Overlay.overlay]
  rw [appendNew_appendNew Name.same_self fun _ _ _ => Name.same_trans]

namespace Database

/-- The database of a definition that declares none is one in which nothing is set. -/
theorem default_overlay (y : Database) : Overlay.overlay ({} : Database) y = y := by
  obtain ⟨dialect, roles, settings⟩ := y
  simp only [Overlay.overlay, Siblings.overlay_nil]
  cases dialect <;> cases roles <;> rfl

theorem overlay_regroup {x y z : Database} (hy : Siblings.Distinct y.settings)
    (hz : Siblings.Distinct z.settings) :
    Overlay.overlay x (Overlay.overlay y z) = Overlay.overlay (Overlay.overlay x y) z := by
  have hsettings := Siblings.overlay_regroup (a := x.settings) hy hz fun _ _ _ _ _ _ => rfl
  obtain ⟨xdialect, xroles, xsettings⟩ := x
  obtain ⟨ydialect, yroles, ysettings⟩ := y
  obtain ⟨zdialect, zroles, zsettings⟩ := z
  have hdialect : ((zdialect <|> ydialect) <|> xdialect) =
      (zdialect <|> (ydialect <|> xdialect)) := by
    cases zdialect <;> rfl
  show Database.mk _ _ _ = Database.mk _ _ _
  rw [Database.mk.injEq]
  refine ⟨hdialect, ?_, hsettings⟩
  cases zroles with
  | none => cases yroles <;> cases xroles <;> rfl
  | some r =>
    cases yroles with
    | none => cases xroles <;> rfl
    | some q =>
      cases xroles with
      | none => rfl
      | some p => exact congrArg some (Roles.overlay_regroup p q r)

end Database

/-! ## The theorem -/

namespace Definition

theorem database_overlay_of_none {base layer : Definition} (h : layer.database = none) :
    (Overlay.overlay base layer).database = base.database := by
  simp only [Overlay.overlay, h]

theorem database_overlay_of_some {base layer : Definition} {y : Database}
    (h : layer.database = some y) :
    (Overlay.overlay base layer).database =
      some (Overlay.overlay (base.database.getD {}) y) := by
  simp only [Overlay.overlay, h]

theorem database_overlay_regroup {a b c : Definition}
    (hb : ∀ y ∈ b.database, Siblings.Distinct y.settings)
    (hc : ∀ z ∈ c.database, Siblings.Distinct z.settings) :
    (Overlay.overlay a (Overlay.overlay b c)).database =
      (Overlay.overlay (Overlay.overlay a b) c).database := by
  cases hz : c.database with
  | none =>
    have hbc : (Overlay.overlay b c).database = b.database := database_overlay_of_none hz
    rw [database_overlay_of_none hz]
    cases hy : b.database with
    | none => rw [database_overlay_of_none (hbc.trans hy), database_overlay_of_none hy]
    | some y => rw [database_overlay_of_some (hbc.trans hy), database_overlay_of_some hy]
  | some z =>
    rw [database_overlay_of_some (database_overlay_of_some hz), database_overlay_of_some hz]
    cases hy : b.database with
    | none => rw [database_overlay_of_none hy, Option.getD_none, Database.default_overlay]
    | some y =>
      rw [database_overlay_of_some hy, Option.getD_some, Option.getD_some,
        Database.overlay_regroup (hb y hy) (hc z hz)]

theorem overlay_regroup {a b c : Definition} (hb : b.Plain) (hc : c.Plain) :
    Overlay.overlay a (Overlay.overlay b c) = Overlay.overlay (Overlay.overlay a b) c := by
  have hdatabase := database_overlay_regroup (a := a) hb.siblings.settings hc.siblings.settings
  have hschemas := Siblings.overlay_regroup (a := a.schemas) hb.siblings.schemas
    hc.siblings.schemas fun _ _ s hs t ht =>
      Schema.overlay_regroup (hb.siblings.parts s hs) (hc.siblings.parts t ht)
        (hb.routines s hs) (hc.routines t ht) (hb.rows s hs) (hc.rows t ht)
  have hlanguages := Siblings.overlay_regroup (a := a.languages) hb.siblings.languages
    hc.siblings.languages fun _ _ _ _ _ _ => rfl
  have hrefl : ∀ snippet : Snippet, Identity.sameAs snippet snippet := fun snippet =>
    sameAs_iff_key.mpr ⟨snippet.text, rfl, rfl⟩
  have hsnippets := appendNew_appendNew hrefl (fun _ _ _ => TransIdentity.trans)
    a.snippets b.snippets c.snippets
  show Definition.mk _ _ _ _ = Definition.mk _ _ _ _
  rw [Definition.mk.injEq]
  exact ⟨hdatabase, hschemas, hlanguages, hsnippets⟩

/-- Laying nothing over a definition changes nothing. -/
theorem overlay_empty (d : Definition) : Overlay.overlay d empty = d := by
  show Definition.mk _ _ _ _ = d
  simp only [empty, Siblings.overlay_empty, appendNew_nil]

/-- A definition laid over nothing is itself, if no snippet repeats another one. -/
theorem empty_overlay {d : Definition} (h : (d.snippets.map Snippet.text).Nodup) :
    Overlay.overlay empty d = d := by
  have hsnippets : appendNew Identity.sameAs [] d.snippets = d.snippets := by
    refine appendNew_nil_left ((List.pairwise_map.mp h).imp ?_)
    intro a b hne hsame
    exact hne (Option.some.inj (key_eq_of_sameAs hsame))
  obtain ⟨database, schemas, languages, snippets⟩ := d
  show Definition.mk _ _ _ _ = Definition.mk _ _ _ _
  rw [Definition.mk.injEq]
  refine ⟨?_, Siblings.overlay_nil _, Siblings.overlay_nil _, hsnippets⟩
  cases database with
  | none => rfl
  | some y => exact congrArg some (Database.default_overlay y)

/-- **Layers can be laid over each other first.** Of three definitions that repeat
nothing and have neither routines nor rows, the second and third may be laid over
each other before they are laid over the first. The empty definition changes
nothing as a layer, and as a base only drops snippets that repeat. -/
theorem overlay_assoc :
    (∀ a b c : Definition, a.Plain → b.Plain → c.Plain →
      Overlay.overlay a (Overlay.overlay b c) = Overlay.overlay (Overlay.overlay a b) c) ∧
    (∀ d : Definition, Overlay.overlay d empty = d) ∧
    ∀ d : Definition, (d.snippets.map Snippet.text).Nodup → Overlay.overlay empty d = d :=
  ⟨fun _ _ _ _ hb hc => overlay_regroup hb hc, overlay_empty, fun _ => empty_overlay⟩

/-- Three layers of one table in three spellings, with objects that only one or two
of them have. -/
def strata : Fin 3 → Definition
  | 0 =>
    { schemas :=
        [{ name := "app", owner := "ops"
           tables :=
            [{ name := "Users", columns := [.typed "id" "int", .typed "mail" "text"]
               grants := [.ofPermissions ["web"] ["SELECT"]] }]
           views := [{ name := "active", queries := [⟨.pgsql8, "a"⟩] }] }] }
  | 1 =>
    { database := some { roles := some { custom := ["Reporting", "etl"] } }
      schemas :=
        [{ name := "APP"
           tables :=
            [{ name := "users", columns := [.typed "MAIL" "varchar"], primaryKey := ["id"] },
              { name := "log" }] },
          { name := "audit" }]
      snippets := [{ text := "x" }] }
  | 2 =>
    { database := some { dialect := some .pgsql8, roles := some { custom := ["REPORTING", "dba"] } }
      schemas :=
        [{ name := "Audit", owner := "dba" },
          { name := "App"
            tables :=
              [{ name := "LOG", columns := [.typed "at" "time"] },
                { name := "USERS", columns := [.typed "mail" "citext", .typed "seen" "time"]
                  grants := [.ofPermissions ["etl"] ["SELECT"]] }]
            views := [{ name := "Active", queries := [⟨.pgsql8, "b"⟩, ⟨.mysql5, "c"⟩] }] }]
      snippets := [{ text := "x", author := "ann" }, { text := "y" }] }

theorem overlay_assoc_strata :
    (∀ i, (strata i).Plain) ∧
    Overlay.overlay (strata 0) (Overlay.overlay (strata 1) (strata 2)) =
      Overlay.overlay (Overlay.overlay (strata 0) (strata 1)) (strata 2) ∧
    (Overlay.overlay (Overlay.overlay (strata 0) (strata 1)) (strata 2)).schemas.map
      (fun s => (s.name, s.tables.map fun t => (t.name, t.columns.map Column.name))) =
        [("app", [("Users", ["id", "mail", "seen"]), ("log", ["at"])]), ("audit", [])] ∧
    Overlay.overlay (strata 0) empty = strata 0 ∧
    ((strata 2).snippets.map Snippet.text).Nodup ∧ Overlay.overlay empty (strata 2) = strata 2 := by
  have hplain : ∀ i, (strata i).Plain := by decide +kernel
  have hnodup : ((strata 2).snippets.map Snippet.text).Nodup := by decide +kernel
  obtain ⟨hassoc, hright, hleft⟩ := overlay_assoc
  exact ⟨hplain, hassoc _ _ _ (hplain 0) (hplain 1) (hplain 2), by decide +kernel,
    hright _, hnodup, hleft _ hnodup⟩

end Definition

end LayeredSchema
