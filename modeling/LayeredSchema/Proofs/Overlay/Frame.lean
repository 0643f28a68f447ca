import LayeredSchema.Proofs.Overlay.Again
import LayeredSchema.Proofs.Overlay.Landing

/-!
# What a layer leaves alone

A layer never removes or moves anything, and changes only what it lands on. For
one list of siblings that is `Siblings.Framed`: every sibling of the base has a
successor at its own position, it is that successor unless some child of the
layer lands on it, and the children that land nowhere follow, in their order.

The successor of a sibling that was landed on has parts of its own. So for each
kind there is a relation between a sibling, the children that landed on it and
its successor (`Table.Framed` up to `Definition.Framed`): the successor is the
same thing still, it has the grants of all of them, and its parts are framed in
turn. Of a distinct layer at most one child lands on a sibling, but for
routines, on which several may land, each for dialects of its own.
-/

namespace LayeredSchema

namespace Siblings

variable {α : Type} [Identity α]

/-- How siblings come out of a layer. `change` relates a sibling and the children that
land on it to its successor. -/
structure Framed (change : α → List α → α → Prop) (base layer result : List α) : Prop where
  kept : ∀ i b, base[i]? = some b →
    ∃ r, result[i]? = some r ∧ change b (landingAt base i layer) r
  untouched : ∀ i b, base[i]? = some b → (∀ child ∈ layer, landing? base child ≠ some i) →
    result[i]? = some b
  added : result.drop base.length = landingNowhere base layer

/-- The successor of a sibling is the same thing, whatever landed on it. -/
def StillSame (base : α) (_landed : List α) (result : α) : Prop := Identity.sameAs result base

variable {change : α → List α → α → Prop}

theorem framed_nil (h : ∀ b, change b [] b) (base : List α) : Framed change base [] base where
  kept i b hb := ⟨b, hb, h b⟩
  untouched i b hb _ := hb
  added := by rw [List.drop_length]; rfl

variable [Overlay α] {base layer : List α}

/-- A layer frames its base if siblings change as they should under what they take. -/
theorem framed_overlay (h : AlwaysSteady layer)
    (hchange : ∀ b taken, taken.Sublist layer → (∀ child ∈ taken, Identity.sameAs b child) →
      change b taken (taken.foldl Overlay.overlay b)) :
    Framed change base layer (overlay base layer) where
  kept i b hb := ⟨_, getElem?_overlay h hb,
    hchange b _ landingAt_sublist fun _ hchild => sameAs_of_mem_landingAt hb hchild⟩
  untouched i b hb hnone := by
    rw [getElem?_overlay h hb, landingAt_eq_nil_iff.mpr hnone, List.foldl_nil]
  added := drop_overlay h

variable [LawfulOverlay α]

/-- A sibling that is the same as itself stays the same as it was. -/
theorem sameAs_overlay_self {b child : α} (hself : Identity.sameAs b b)
    (h : Identity.sameAs b child) : Identity.sameAs (Overlay.overlay b child) b :=
  (LawfulOverlay.sameAs_overlay h).mpr (.inl hself)

variable [TransIdentity α]

/-- In a transitive kind at most one child of a distinct layer is taken. -/
theorem Distinct.eq_nil_or_singleton {taken : List α} (h : Distinct taken) {b : α}
    (hb : ∀ child ∈ taken, Identity.sameAs b child) : taken = [] ∨ ∃ child, taken = [child] := by
  have hall : taken.filter (Identity.sameAs b) = taken := List.filter_eq_self.mpr hb
  rcases filter_sameAs h b with ⟨hnil, -⟩ | ⟨child, -, -, hone⟩
  · exact .inl (hall.symm.trans hnil)
  · exact .inr ⟨child, hall.symm.trans hone⟩

/-- A distinct layer of a transitive kind, child by child. -/
theorem framed_overlay_of_trans (h : Distinct layer) (hnil : ∀ b, change b [] b)
    (hone : ∀ b, ∀ child ∈ layer, Identity.sameAs b child →
      change b [child] (Overlay.overlay b child)) :
    Framed change base layer (overlay base layer) := by
  refine framed_overlay (alwaysSteady_of_distinct h) fun b taken hsub hsame => ?_
  rcases (h.sublist hsub).eq_nil_or_singleton hsame with rfl | ⟨child, rfl⟩
  · exact hnil b
  · exact hone b child (hsub.mem List.mem_cons_self) (hsame child List.mem_cons_self)

/-- Parts without parts of their own that are framed. -/
theorem framed_parts (hself : ∀ b : α, Identity.sameAs b b) (h : Distinct layer) :
    Framed StillSame base layer (overlay base layer) :=
  framed_overlay_of_trans h hself fun b _ _ hsame => sameAs_overlay_self (hself b) hsame

end Siblings

open Siblings (Distinct Framed StillSame framed_nil framed_parts framed_overlay_of_trans
  sameAs_overlay_self landing? landingAt landingNowhere)

/-- Whatever is known by a name is the same as itself. -/
theorem sameAs_named_self {α : Type} [Named α] (a : α) : Identity.sameAs a a := sameAs_self rfl

/-! ## Tables -/

/-- A table, the tables that landed on it, and its successor. -/
structure Table.Framed (base : Table) (landed : List Table) (result : Table) : Prop where
  same : Identity.sameAs result base
  grants : result.grants = base.grants ++ landed.flatMap Table.grants
  /-- Foreign keys are replaced as a whole. -/
  foreignKeys : ∀ t ∈ landed, result.foreignKeys = t.foreignKeys
  options : Siblings.Framed StillSame base.options (landed.flatMap Table.options) result.options
  columns : Siblings.Framed StillSame base.columns (landed.flatMap Table.columns) result.columns
  indexes : Siblings.Framed StillSame base.indexes (landed.flatMap Table.indexes) result.indexes
  constraints : Siblings.Framed StillSame base.constraints (landed.flatMap Table.constraints)
    result.constraints

theorem Table.framed_self (t : Table) : Table.Framed t [] t where
  same := sameAs_named_self t
  grants := by rw [List.flatMap_nil, List.append_nil]
  foreignKeys _ h := absurd h List.not_mem_nil
  options := framed_nil (fun _ => sameAs_self rfl) _
  columns := framed_nil sameAs_named_self _
  indexes := framed_nil sameAs_named_self _
  constraints := framed_nil sameAs_named_self _

theorem Table.framed_overlay {base layer : Table} (hsame : Identity.sameAs base layer)
    (h : layer.SiblingsDistinct) : Table.Framed base [layer] (Overlay.overlay base layer) where
  same := sameAs_overlay_self (sameAs_named_self base) hsame
  grants := by rw [List.flatMap_singleton]; rfl
  foreignKeys t ht := by rw [List.mem_singleton.mp ht]; rfl
  options := by
    rw [List.flatMap_singleton]
    exact framed_parts (fun _ => sameAs_self rfl) h.options
  columns := by
    rw [List.flatMap_singleton]
    exact framed_parts sameAs_named_self h.columns
  indexes := by
    rw [List.flatMap_singleton]
    exact framed_parts sameAs_named_self h.indexes
  constraints := by
    rw [List.flatMap_singleton]
    exact framed_parts sameAs_named_self h.constraints

/-! ## Sequences and views -/

/-- A sequence, the sequences that landed on it, and its successor. -/
structure Sequence.Framed (base : Sequence) (landed : List Sequence) (result : Sequence) :
    Prop where
  same : Identity.sameAs result base
  grants : result.grants = base.grants ++ landed.flatMap Sequence.grants

theorem Sequence.framed_self (q : Sequence) : Sequence.Framed q [] q where
  same := sameAs_named_self q
  grants := by rw [List.flatMap_nil, List.append_nil]

theorem Sequence.framed_overlay {base layer : Sequence} (hsame : Identity.sameAs base layer) :
    Sequence.Framed base [layer] (Overlay.overlay base layer) where
  same := sameAs_overlay_self (sameAs_named_self base) hsame
  grants := by rw [List.flatMap_singleton]; rfl

/-- A view, the views that landed on it, and its successor. -/
structure View.Framed (base : View) (landed : List View) (result : View) : Prop where
  same : Identity.sameAs result base
  grants : result.grants = base.grants ++ landed.flatMap View.grants
  queries : Siblings.Framed StillSame base.queries (landed.flatMap View.queries) result.queries

theorem View.framed_self (v : View) : View.Framed v [] v where
  same := sameAs_named_self v
  grants := by rw [List.flatMap_nil, List.append_nil]
  queries := framed_nil (fun _ => sameAs_self rfl) _

theorem View.framed_overlay {base layer : View} (hsame : Identity.sameAs base layer)
    (h : Distinct layer.queries) : View.Framed base [layer] (Overlay.overlay base layer) where
  same := sameAs_overlay_self (sameAs_named_self base) hsame
  grants := by rw [List.flatMap_singleton]; rfl
  queries := by
    rw [List.flatMap_singleton]
    exact framed_parts (fun _ => sameAs_self rfl) h

/-! ## Routines -/

namespace Routine

/-- The successor of a body is for the same dialect, or for none as it was. -/
def Body.StillFor (base : Body) (_landed : List Body) (result : Body) : Prop :=
  result.dialect = base.dialect

/-- A routine, the routines that landed on it, and its successor. -/
structure Framed (base : Routine) (landed : List Routine) (result : Routine) : Prop where
  signature : result.sameSignature base
  speaks : ∀ dialect, base.Speaks dialect → result.Speaks dialect
  grants : result.grants = base.grants ++ landed.flatMap Routine.grants
  bodies : Siblings.Framed Body.StillFor base.bodies (landed.flatMap Routine.bodies) result.bodies

theorem framed_self (r : Routine) : Framed r [] r where
  signature := sameSignature_iff.mpr rfl
  speaks _ h := h
  grants := by rw [List.flatMap_nil, List.append_nil]
  bodies := framed_nil (fun _ => rfl) _

theorem framed_bodies {base layer : List Body} (h : Distinct layer) :
    Siblings.Framed Body.StillFor base layer (Siblings.overlay base layer) :=
  framed_overlay_of_trans h (fun _ => rfl) fun _ _ _ hsame => (key_eq_of_sameAs hsame).symm

/-- A routine keeps its signature while others of that signature are laid over it. -/
theorem signatureKey_foldl_overlay {base : Routine} {landed : List Routine}
    (h : ∀ r ∈ landed, base.signatureKey = r.signatureKey) :
    (landed.foldl Overlay.overlay base).signatureKey = base.signatureKey := by
  induction landed generalizing base with
  | nil => rfl
  | cons r landed ih =>
    obtain ⟨hr, hrest⟩ := List.forall_mem_cons.mp h
    have hkept := signatureKey_overlay hr
    rw [List.foldl_cons, ih fun s hs => hkept.trans (hrest s hs), hkept]

/-- It speaks the dialects that any of them speaks. -/
theorem speaks_foldl_overlay_iff {base : Routine} {landed : List Routine} {dialect : Dialect} :
    (landed.foldl Overlay.overlay base).Speaks dialect ↔
      base.Speaks dialect ∨ ∃ r ∈ landed, r.Speaks dialect := by
  induction landed generalizing base with
  | nil => simp
  | cons r landed ih =>
    rw [List.foldl_cons, ih, speaks_overlay_iff, List.exists_mem_cons_iff, or_assoc]

/-- The bodies of routines that land together differ, so that they land as one layer. -/
theorem bodies_foldl_overlay {base : Routine} {landed : List Routine} (hdistinct : Distinct landed)
    (hsame : ∀ r ∈ landed, Identity.sameAs base r) :
    (landed.foldl Overlay.overlay base).bodies =
      Siblings.overlay base.bodies (landed.flatMap Routine.bodies) := by
  rw [foldl_overlay]
  cases hlast : landed.getLast? with
  | none =>
    rw [List.getLast?_eq_none_iff.mp hlast]
    exact (Siblings.overlay_empty _).symm
  | some last => exact foldl_bodies (bodies_apart hdistinct hsame)

theorem framed_foldl_overlay {base : Routine} {landed : List Routine} (hdistinct : Distinct landed)
    (hbodies : ∀ r ∈ landed, Distinct r.bodies) (hsame : ∀ r ∈ landed, Identity.sameAs base r) :
    Framed base landed (landed.foldl Overlay.overlay base) where
  signature := by
    rw [sameSignature_iff]
    exact signatureKey_foldl_overlay fun r hr => (sameAs_routine_iff.mp (hsame r hr)).1
  speaks dialect h := speaks_foldl_overlay_iff.mpr (.inl h)
  grants := by
    rw [foldl_overlay]
    cases hlast : landed.getLast? with
    | none => rw [List.getLast?_eq_none_iff.mp hlast, List.flatMap_nil, List.append_nil]
    | some last => rfl
  bodies := by
    rw [bodies_foldl_overlay hdistinct hsame]
    exact framed_bodies (distinct_flatMap_bodies hdistinct hbodies hsame)

end Routine

/-! ## Schemas -/

/-- A schema, the schemas that landed on it, and its successor. -/
structure Schema.Framed (base : Schema) (landed : List Schema) (result : Schema) : Prop where
  same : Identity.sameAs result base
  grants : result.grants = base.grants ++ landed.flatMap Schema.grants
  tables : Siblings.Framed Table.Framed base.tables (landed.flatMap Schema.tables) result.tables
  types : Siblings.Framed StillSame base.types (landed.flatMap Schema.types) result.types
  sequences : Siblings.Framed Sequence.Framed base.sequences (landed.flatMap Schema.sequences)
    result.sequences
  routines : Siblings.Framed Routine.Framed base.routines (landed.flatMap Schema.routines)
    result.routines
  /-- A routine that shares its signature with none of the layer is left as it was. -/
  apart : ∀ (i : Nat) (r : Routine), base.routines[i]? = some r →
    (∀ s ∈ landed.flatMap Schema.routines, ¬ r.sameSignature s) → result.routines[i]? = some r
  triggers : Siblings.Framed StillSame base.triggers (landed.flatMap Schema.triggers)
    result.triggers
  views : Siblings.Framed View.Framed base.views (landed.flatMap Schema.views) result.views

theorem Schema.framed_self (s : Schema) : Schema.Framed s [] s where
  same := sameAs_named_self s
  grants := by rw [List.flatMap_nil, List.append_nil]
  tables := framed_nil Table.framed_self _
  types := framed_nil sameAs_named_self _
  sequences := framed_nil Sequence.framed_self _
  routines := framed_nil Routine.framed_self _
  apart _ _ hr _ := hr
  triggers := framed_nil (fun _ => sameAs_self rfl) _
  views := framed_nil View.framed_self _

theorem Schema.framed_routines {base layer : Schema} (h : layer.SiblingsDistinct) :
    Siblings.Framed Routine.Framed base.routines layer.routines
      (Overlay.overlay base layer).routines := by
  refine Siblings.framed_overlay (Siblings.alwaysSteady_of_distinct h.routines) ?_
  intro r landed hsub hsame
  exact Routine.framed_foldl_overlay (h.routines.sublist hsub)
    (fun s hs => h.bodies s (hsub.mem hs)) hsame

theorem Schema.framed_overlay {base layer : Schema} (hsame : Identity.sameAs base layer)
    (h : layer.SiblingsDistinct) : Schema.Framed base [layer] (Overlay.overlay base layer) where
  same := sameAs_overlay_self (sameAs_named_self base) hsame
  grants := by rw [List.flatMap_singleton]; rfl
  tables := by
    rw [List.flatMap_singleton]
    exact framed_overlay_of_trans h.tables Table.framed_self
      fun _ t ht hbt => Table.framed_overlay hbt (h.parts t ht)
  types := by
    rw [List.flatMap_singleton]
    exact framed_parts sameAs_named_self h.types
  sequences := by
    rw [List.flatMap_singleton]
    exact framed_overlay_of_trans h.sequences Sequence.framed_self
      fun _ _ _ hbq => Sequence.framed_overlay hbq
  routines := by
    rw [List.flatMap_singleton]
    exact Schema.framed_routines h
  apart i r hr hnone := by
    rw [List.flatMap_singleton] at hnone
    refine (Schema.framed_routines h).untouched i r hr fun s hs hland => ?_
    -- a routine that lands here would have the signature
    have hmem : s ∈ landingAt base.routines i layer.routines :=
      List.mem_filter.mpr ⟨hs, decide_eq_true hland⟩
    obtain ⟨hsig, -⟩ :=
      Routine.sameAs_routine_iff.mp (Siblings.sameAs_of_mem_landingAt hr hmem)
    exact hnone s hs (Routine.sameSignature_iff.mpr hsig)
  triggers := by
    rw [List.flatMap_singleton]
    exact framed_parts (fun _ => sameAs_self rfl) h.triggers
  views := by
    rw [List.flatMap_singleton]
    exact framed_overlay_of_trans h.views View.framed_self
      fun _ v hv hbv => View.framed_overlay hbv (h.queries v hv)

/-! ## Definitions -/

namespace Definition

/-- The settings of the database, if one is declared. -/
def settings (d : Definition) : List Setting := d.database.elim [] Database.settings

/-- The custom roles of the database, if any are assigned. -/
def customRoles (d : Definition) : List String :=
  (d.database.bind Database.roles).elim [] Roles.custom

/-- The roles of the database, if any are assigned. -/
def roles (d : Definition) : Option Roles := d.database.bind Database.roles

/-- A definition, a layer over it, and what comes of the two. -/
structure Framed (base layer result : Definition) : Prop where
  schemas : Siblings.Framed Schema.Framed base.schemas layer.schemas result.schemas
  languages : Siblings.Framed StillSame base.languages layer.languages result.languages
  settings : Siblings.Framed StillSame base.settings layer.settings result.settings
  customRoles : base.customRoles <+: result.customRoles
  snippets : base.snippets <+: result.snippets
  addedSnippets : (result.snippets.drop base.snippets.length).Sublist
    (landingNowhere base.snippets layer.snippets)
  /-- Nothing of the layer is passed over that the base lacks, if the layer repeats none. -/
  allSnippets : Distinct layer.snippets →
    result.snippets.drop base.snippets.length = landingNowhere base.snippets layer.snippets

theorem settings_overlay (base layer : Definition) :
    (Overlay.overlay base layer).settings = Siblings.overlay base.settings layer.settings := by
  obtain ⟨database, _, _, _⟩ := base
  obtain ⟨layered, _, _, _⟩ := layer
  cases layered with
  | none => exact (Siblings.overlay_empty _).symm
  | some layered => cases database <;> rfl

theorem roles_overlay (base layer : Definition) : (Overlay.overlay base layer).roles =
    match base.roles, layer.roles with
    | some first, some last => some (Overlay.overlay first last)
    | first, last => last.or first := by
  obtain ⟨database, _, _, _⟩ := base
  obtain ⟨layered, _, _, _⟩ := layer
  cases layered with
  | none => cases hroles : database.bind Database.roles <;> simp [roles, hroles, Overlay.overlay]
  | some layered =>
    obtain ⟨_, layeredRoles, _⟩ := layered
    cases database with
    | none => cases layeredRoles <;> rfl
    | some database =>
      obtain ⟨_, baseRoles, _⟩ := database
      cases layeredRoles <;> cases baseRoles <;> rfl

theorem customRoles_prefix_overlay (base layer : Definition) :
    base.customRoles <+: (Overlay.overlay base layer).customRoles := by
  show base.roles.elim [] Roles.custom <+: (Overlay.overlay base layer).roles.elim [] Roles.custom
  rw [roles_overlay]
  cases base.roles with
  | none => exact List.nil_prefix
  | some first =>
    cases layer.roles with
    | none => exact List.prefix_refl _
    | some last => exact base_prefix_appendNew first.custom last.custom

theorem landingNowhere_snippets (base layer : List Snippet) :
    landingNowhere base layer =
      layer.filter fun a => !base.any fun b => Identity.sameAs b a := by
  refine List.filter_congr fun a _ => ?_
  rw [Bool.eq_iff_iff, decide_eq_true_iff, Siblings.landing?_eq_none_iff]
  simp

/-- **Layers never delete, reorder or touch what they do not match.** Whatever the base
repeats, a layer without repetitions frames it at every level. -/
theorem overlay_framed (base : Definition) {layer : Definition} (h : layer.SiblingsDistinct) :
    Framed base layer (Overlay.overlay base layer) where
  schemas := framed_overlay_of_trans h.schemas Schema.framed_self
    fun _ s hs hbs => Schema.framed_overlay hbs (h.parts s hs)
  languages := framed_parts sameAs_named_self h.languages
  settings := by
    rw [settings_overlay]
    refine framed_parts sameAs_named_self ?_
    cases hdatabase : layer.database with
    | none => rw [settings, hdatabase]; exact List.Pairwise.nil
    | some database => rw [settings, hdatabase]; exact h.settings database hdatabase
  customRoles := customRoles_prefix_overlay base layer
  snippets := base_prefix_appendNew _ _
  addedSnippets := by
    rw [landingNowhere_snippets]
    exact appendNew_drop_sublist _ _
  allSnippets hsnippets := by
    rw [landingNowhere_snippets]
    exact appendNew_drop _ hsnippets

/-- Two schemas of one name, the first with two tables of one name and a routine that is
declared apart for two dialects. -/
def crowded : Definition where
  schemas :=
    [{ name := "shop", grants := [.ofPermissions ["alice"] ["usage"]]
       tables :=
        [{ name := "users", columns := [.typed "id" "int", .typed "ID" "text"] },
         { name := "Users", columns := [.typed "id" "int"] }]
       routines :=
        [{ name := "now", bodies := [{ dialect := some .pgsql8, text := "a" }] },
         { name := "now", bodies := [{ dialect := some .mysql5, text := "b" }] },
         { name := "then", bodies := [{ text := "c" }] }] },
     { name := "Shop", tables := [{ name := "users" }] }]
  snippets := [{ text := "vacuum" }, { text := "vacuum" }]

/-- A layer that lands on the first of each, and on both routines. -/
def guest : Definition where
  schemas :=
    [{ name := "SHOP", grants := [.ofPermissions ["bob"] ["usage"]]
       tables := [{ name := "USERS", columns := [.typed "id" "uuid", .typed "mail" "text"] }]
       routines :=
        [{ name := "NOW", bodies := [{ dialect := some .mysql5, text := "d" }] },
         { name := "Now"
           bodies :=
            [{ dialect := some .pgsql8, text := "e" },
             { dialect := some .mssql10, text := "f" }] }] }]
  snippets := [{ text := "analyze" }, { text := "vacuum" }]

theorem overlay_framed_guest :
    guest.SiblingsDistinct ∧ Framed crowded guest (Overlay.overlay crowded guest) ∧
      (Overlay.overlay crowded guest).schemas[1]? = crowded.schemas[1]? ∧
      (Overlay.overlay crowded guest).snippets.drop 2 = [{ text := "analyze" }] := by
  have hdistinct : guest.SiblingsDistinct := by decide +kernel
  have hframed := overlay_framed crowded hdistinct
  refine ⟨hdistinct, hframed, ?_, ?_⟩
  · -- the second schema of the name is not the one that the layer lands on
    exact hframed.schemas.untouched 1 _ rfl (by decide +kernel)
  · rw [show (2 : Nat) = crowded.snippets.length from rfl,
      hframed.allSnippets (by decide +kernel)]
    decide +kernel

end Definition

end LayeredSchema
