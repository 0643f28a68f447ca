import LayeredSchema.Proofs.Overlay.Regroup
import LayeredSchema.Proofs.Overlay.Settled
import Mathlib.Data.List.Induction

/-!
# Layers laid twice

Laying a layer over a base a second time changes nothing (`overlay_twice`), if the
layer says what it means once (`Definition.Repeatable`): it repeats nothing, gives
no grants, declares the dialect of every body of a routine, and its rows can be
told apart by the primary key of their table. Nothing is asked of the base.

The law for siblings is `Siblings.overlay_again`. A child of the layer lands a
second time where it landed the first time: the sibling that took it has become
the same as nothing else in the layer (`sameAs_taken_iff`), not even a routine,
whose sameness is not transitive. So it is enough that each sibling takes its
children twice as it takes them once. In a transitive kind that is at most one
child; a routine may take several, with bodies for different dialects, and then
the bodies together land as one layer (`Routine.foldl_overlay`).
-/

namespace LayeredSchema

namespace Siblings

variable {α : Type} [Identity α] [Overlay α]

/-- A child that comes to itself when it is laid over a blank, and that changes nothing
when it lands where it landed before. -/
structure LandsAgain (child : α) : Prop where
  blank : ∃ b : α, Identity.sameAs b child ∧ Overlay.overlay b child = child
  onto : ∀ b : α, Identity.sameAs b child →
    Overlay.overlay (Overlay.overlay b child) child = Overlay.overlay b child

/-- A child of a kind that is replaced, if it is the same as itself. -/
theorem landsAgain_of_replacing (h : ∀ base layer : α, Overlay.overlay base layer = layer)
    {child : α} (hself : Identity.sameAs child child) : LandsAgain child where
  blank := ⟨child, hself, h child child⟩
  onto b _ := by rw [h, h]

/-! ## Every kind -/

variable [LawfulOverlay α]

/-- A sibling that took all children of a distinct layer that it is the same as is the
same as these and no others of the layer. -/
theorem sameAs_taken_iff {layer : List α} (hlayer : Distinct layer) (b : α) {child : α}
    (hchild : child ∈ layer) :
    Identity.sameAs ((layer.filter (Identity.sameAs b)).foldl Overlay.overlay b) child =
      Identity.sameAs b child := by
  have htaken : ∀ c ∈ layer.filter (Identity.sameAs b), Identity.sameAs b c :=
    fun c hc => (List.mem_filter.mp hc).2
  rw [Bool.eq_iff_iff, sameAs_foldl_overlay htaken, or_iff_left_iff_imp]
  intro hother
  obtain ⟨c, hc, hcc⟩ := hother
  obtain ⟨hc, hbc⟩ := List.mem_filter.mp hc
  by_cases heq : c = child
  · rw [← heq]
    exact hbc
  · exact absurd hcc (hlayer.not_sameAs hc hchild heq)

/-- A distinct layer over itself, if each child over itself is itself. -/
theorem overlay_self {layer : List α} (hlayer : Distinct layer)
    (hself : ∀ child ∈ layer, Identity.sameAs child child)
    (hover : ∀ child ∈ layer, Overlay.overlay child child = child) :
    overlay layer layer = layer := by
  induction layer with
  | nil => rfl
  | cons child rest ih =>
    obtain ⟨hchild, hrest⟩ := distinct_cons.mp hlayer
    obtain ⟨hselfchild, hselfrest⟩ := List.forall_mem_cons.mp hself
    obtain ⟨hoverchild, hoverrest⟩ := List.forall_mem_cons.mp hover
    have htaken : rest.filter (Identity.sameAs child) = [] :=
      List.filter_eq_nil_iff.mpr hchild
    have hleft : (rest.filter fun c => !Identity.sameAs child c) = rest :=
      List.filter_eq_self.mpr fun c hc => by simpa using hchild c hc
    rw [overlay_cons (steady_of_distinct hlayer child), List.filter_cons_of_pos hselfchild,
      List.filter_cons_of_neg (by simp [hselfchild]), htaken, hleft, List.foldl_cons,
      List.foldl_nil, hoverchild, ih hrest hselfrest hoverrest]

/-- **Layers of siblings laid twice.** Each sibling has to take its children twice as
it takes them once, and each child to be the same as itself and to take itself. -/
theorem overlay_again_of_taken (base : List α) {layer : List α} (hlayer : Distinct layer)
    (hself : ∀ child ∈ layer, Identity.sameAs child child)
    (hover : ∀ child ∈ layer, Overlay.overlay child child = child)
    (htwice : ∀ b : α, ∀ taken : List α, taken.Sublist layer →
      (∀ child ∈ taken, Identity.sameAs b child) →
      taken.foldl Overlay.overlay (taken.foldl Overlay.overlay b) =
        taken.foldl Overlay.overlay b) :
    overlay (overlay base layer) layer = overlay base layer := by
  induction base generalizing layer with
  | nil => rw [overlay_nil, overlay_self hlayer hself hover]
  | cons b rest ih =>
    have hsub : (layer.filter fun child => !Identity.sameAs b child).Sublist layer :=
      List.filter_sublist
    have hrest := ih (hlayer.sublist hsub) (fun c hc => hself c (hsub.mem hc))
      (fun c hc => hover c (hsub.mem hc)) fun b' taken ht => htwice b' taken (ht.trans hsub)
    -- the sibling that took its children takes and leaves what it did before
    have htake : layer.filter (Identity.sameAs
        ((layer.filter (Identity.sameAs b)).foldl Overlay.overlay b)) =
          layer.filter (Identity.sameAs b) :=
      List.filter_congr fun c hc => sameAs_taken_iff hlayer b hc
    have hleave : (layer.filter fun c => !Identity.sameAs
        ((layer.filter (Identity.sameAs b)).foldl Overlay.overlay b) c) =
          layer.filter fun c => !Identity.sameAs b c :=
      List.filter_congr fun c hc => congrArg not (sameAs_taken_iff hlayer b hc)
    rw [overlay_cons (steady_of_distinct hlayer b), overlay_cons (steady_of_distinct hlayer _),
      htake, hleave, hrest, htwice b _ List.filter_sublist fun c hc => (List.mem_filter.mp hc).2]

/-! ## Transitive kinds -/

variable [TransIdentity α]

/-- **Layers of siblings of a transitive kind laid twice.** -/
theorem overlay_again (base : List α) {layer : List α} (hlayer : Distinct layer)
    (h : ∀ child ∈ layer, LandsAgain child) :
    overlay (overlay base layer) layer = overlay base layer := by
  refine overlay_again_of_taken base hlayer (fun child hchild => ?_) (fun child hchild => ?_) ?_
  · obtain ⟨b, hb, -⟩ := (h child hchild).blank
    exact TransIdentity.trans (SymmIdentity.symm hb) hb
  · obtain ⟨b, hb, hover⟩ := (h child hchild).blank
    have honto := (h child hchild).onto b hb
    rw [hover] at honto
    exact honto
  · intro b taken hsub htaken
    -- of a distinct layer, a sibling takes at most one child
    have hall : taken.filter (Identity.sameAs b) = taken := List.filter_eq_self.mpr htaken
    rcases filter_sameAs (hlayer.sublist hsub) b with ⟨hnil, -⟩ | ⟨child, hchild, hb, hone⟩
    · rw [← hall, hnil, List.foldl_nil, List.foldl_nil]
    · rw [← hall, hone]
      exact (h child (hsub.mem hchild)).onto b hb

/-- Two layers of which no child of the one is the same as one of the other, laid one
after the other or as one. -/
theorem overlay_append {base first second : List α}
    (h : ∀ a ∈ first, ∀ c ∈ second, ¬ Identity.sameAs a c) :
    overlay base (first ++ second) = overlay (overlay base first) second := by
  induction base generalizing first second with
  | nil =>
    rw [overlay_nil, overlay_nil]
    induction first with
    | nil => rw [List.nil_append, overlay_nil]
    | cons a first ih =>
      obtain ⟨ha, hfirst⟩ := List.forall_mem_cons.mp h
      have htake : second.filter (Identity.sameAs a) = [] := List.filter_eq_nil_iff.mpr ha
      have hleave : (second.filter fun c => !Identity.sameAs a c) = second :=
        List.filter_eq_self.mpr fun c hc => by simpa using ha c hc
      rw [List.cons_append, overlay_cons (steady_of_trans a second), htake, hleave,
        List.foldl_nil, ih hfirst]
  | cons b rest ih =>
    have htaken : ∀ child ∈ first.filter (Identity.sameAs b), Identity.sameAs b child :=
      fun child hchild => (List.mem_filter.mp hchild).2
    rw [overlay_cons (steady_of_trans b _), overlay_cons (steady_of_trans b first),
      overlay_cons (steady_of_trans _ second), sameAs_foldl_overlay_of_trans htaken,
      List.filter_append, List.filter_append, List.foldl_append, ih]
    intro a ha c hc
    exact h a (List.mem_filter.mp ha).1 c (List.mem_filter.mp hc).1

end Siblings

open Siblings (Distinct LandsAgain landsAgain_of_replacing)

/-- Whatever has a key is the same as itself. -/
theorem sameAs_self {α κ : Type} [Keyed α κ] [DecidableEq κ] {a : α} {k : κ}
    (h : Keyed.key a = some k) : Identity.sameAs a a :=
  sameAs_iff_key.mpr ⟨k, h, h⟩

/-! ## Routines -/

namespace Routine

/-- The routine gives no grants, and has bodies, all of which declare their dialect. -/
structure Repeatable (r : Routine) : Prop where
  grants : r.grants = []
  spoken : r.bodies ≠ []
  declared : ∀ body ∈ r.bodies, body.dialect ≠ none

instance (r : Routine) : Decidable r.Repeatable :=
  decidable_of_iff (r.grants = [] ∧ r.bodies ≠ [] ∧ ∀ body ∈ r.bodies, body.dialect ≠ none)
    ⟨fun ⟨hg, hs, hd⟩ => ⟨hg, hs, hd⟩, fun ⟨hg, hs, hd⟩ => ⟨hg, hs, hd⟩⟩

theorem sameAs_body_self {body : Body} (h : body.dialect ≠ none) : Identity.sameAs body body := by
  obtain ⟨dialect, hdialect⟩ := Option.ne_none_iff_exists'.mp h
  exact sameAs_self hdialect

theorem landsAgain_body {body : Body} (h : body.dialect ≠ none) : LandsAgain body :=
  landsAgain_of_replacing (fun _ _ => rfl) (sameAs_body_self h)

theorem Repeatable.sameAs_self {r : Routine} (h : r.Repeatable) : Identity.sameAs r r := by
  obtain ⟨body, hbody⟩ := List.exists_mem_of_ne_nil _ h.spoken
  obtain ⟨dialect, hdialect⟩ := Option.ne_none_iff_exists'.mp (h.declared body hbody)
  have hspeaks : r.Speaks dialect := ⟨body, hbody, hdialect⟩
  exact sameAs_routine_iff.mpr ⟨rfl, dialect, hspeaks, hspeaks⟩

/-- A routine over which others are laid says of itself what the last of them says, and
has the bodies and grants of all of them. -/
theorem foldl_overlay (b : Routine) (taken : List Routine) :
    taken.foldl Overlay.overlay b =
      match taken.getLast? with
      | none => b
      | some last =>
        { last with
          name := b.name
          bodies := taken.foldl (fun bodies r => Siblings.overlay bodies r.bodies) b.bodies
          grants := b.grants ++ taken.flatMap Routine.grants } := by
  induction taken using List.reverseRecOn with
  | nil => rfl
  | append_singleton taken last ih =>
    rw [List.foldl_append, ih, List.getLast?_concat, List.foldl_append, List.flatMap_append]
    cases hlast : taken.getLast? with
    | none =>
      rw [List.getLast?_eq_none_iff.mp hlast]
      simp [Overlay.overlay]
    | some before => simp [Overlay.overlay]

/-- Bodies of which no two are the same land together as they land one routine after
the other. -/
theorem foldl_bodies {bodies : List Body} {taken : List Routine}
    (h : taken.Pairwise fun r s => ∀ a ∈ r.bodies, ∀ c ∈ s.bodies, ¬ Identity.sameAs a c) :
    taken.foldl (fun bodies r => Siblings.overlay bodies r.bodies) bodies =
      Siblings.overlay bodies (taken.flatMap Routine.bodies) := by
  induction taken generalizing bodies with
  | nil => exact (Siblings.overlay_empty bodies).symm
  | cons r taken ih =>
    obtain ⟨hr, htaken⟩ := List.pairwise_cons.mp h
    have hapart : ∀ a ∈ r.bodies, ∀ c ∈ taken.flatMap Routine.bodies, ¬ Identity.sameAs a c := by
      intro a ha c hc
      obtain ⟨s, hs, hc⟩ := List.mem_flatMap.mp hc
      exact hr s hs a ha c hc
    rw [List.foldl_cons, ih htaken, List.flatMap_cons, Siblings.overlay_append hapart]

/-- Routines that one routine takes have one signature, so that their bodies differ. -/
theorem bodies_apart {b : Routine} {taken : List Routine} (hdistinct : Distinct taken)
    (htaken : ∀ r ∈ taken, Identity.sameAs b r) :
    taken.Pairwise fun r s => ∀ a ∈ r.bodies, ∀ c ∈ s.bodies, ¬ Identity.sameAs a c := by
  refine hdistinct.imp_of_mem ?_
  intro r s hr hs hrs a ha c hc hac
  obtain ⟨hsigr, -⟩ := sameAs_routine_iff.mp (htaken r hr)
  obtain ⟨hsigs, -⟩ := sameAs_routine_iff.mp (htaken s hs)
  obtain ⟨dialect, hda, hdc⟩ := sameAs_iff_key.mp hac
  exact hrs (sameAs_routine_iff.mpr
    ⟨hsigr.symm.trans hsigs, dialect, ⟨a, ha, hda⟩, c, hc, hdc⟩)

theorem distinct_flatMap_bodies {b : Routine} {taken : List Routine} (hdistinct : Distinct taken)
    (hbodies : ∀ r ∈ taken, Distinct r.bodies) (htaken : ∀ r ∈ taken, Identity.sameAs b r) :
    Distinct (taken.flatMap Routine.bodies) :=
  List.pairwise_flatMap.mpr ⟨hbodies, bodies_apart hdistinct htaken⟩

theorem foldl_overlay_again {b : Routine} {taken : List Routine} (hdistinct : Distinct taken)
    (hbodies : ∀ r ∈ taken, Distinct r.bodies) (hrepeat : ∀ r ∈ taken, r.Repeatable)
    (htaken : ∀ r ∈ taken, Identity.sameAs b r) :
    taken.foldl Overlay.overlay (taken.foldl Overlay.overlay b) =
      taken.foldl Overlay.overlay b := by
  have hapart := bodies_apart hdistinct htaken
  have hall := distinct_flatMap_bodies hdistinct hbodies htaken
  have hagain : ∀ body ∈ taken.flatMap Routine.bodies, LandsAgain body := by
    intro body hbody
    obtain ⟨r, hr, hbody⟩ := List.mem_flatMap.mp hbody
    exact landsAgain_body ((hrepeat r hr).declared body hbody)
  have hgrants : taken.flatMap Routine.grants = [] :=
    List.flatMap_eq_nil_iff.mpr fun r hr => (hrepeat r hr).grants
  rw [foldl_overlay, foldl_overlay b]
  cases taken.getLast? with
  | none => rfl
  | some last =>
    simp only [foldl_bodies hapart, Siblings.overlay_again _ hall hagain, hgrants, List.append_nil]

theorem overlay_self {r : Routine} (h : r.Repeatable) (hbodies : Distinct r.bodies) :
    Overlay.overlay r r = r := by
  have hover : Siblings.overlay r.bodies r.bodies = r.bodies :=
    Siblings.overlay_self hbodies (fun body hbody => sameAs_body_self (h.declared body hbody))
      fun _ _ => rfl
  simp only [Overlay.overlay, hover, h.grants, List.append_nil]
  rw [← h.grants]

end Routine

/-! ## The other kinds -/

/-- The table gives no grants, and its rows, if it has any, can be told apart by its
primary key. -/
structure Table.Repeatable (t : Table) : Prop where
  grants : t.grants = []
  rows : ∀ block ∈ t.rows, block.rows ≠ [] → block.Keyed t.primaryKey

instance (t : Table) : Decidable t.Repeatable :=
  decidable_of_iff
    (t.grants = [] ∧ ∀ block ∈ t.rows, block.rows ≠ [] → block.Keyed t.primaryKey)
    ⟨fun ⟨hg, hr⟩ => ⟨hg, hr⟩, fun ⟨hg, hr⟩ => ⟨hg, hr⟩⟩

/-- Nothing in the schema gives grants, and what it holds can be laid twice. -/
structure Schema.Repeatable (s : Schema) : Prop where
  grants : s.grants = []
  tables : ∀ t ∈ s.tables, t.Repeatable
  sequences : ∀ q ∈ s.sequences, q.grants = []
  routines : ∀ r ∈ s.routines, r.Repeatable
  views : ∀ v ∈ s.views, v.grants = []

instance (s : Schema) : Decidable s.Repeatable :=
  decidable_of_iff
    (s.grants = [] ∧ (∀ t ∈ s.tables, t.Repeatable) ∧ (∀ q ∈ s.sequences, q.grants = []) ∧
      (∀ r ∈ s.routines, r.Repeatable) ∧ ∀ v ∈ s.views, v.grants = [])
    ⟨fun ⟨hg, ht, hq, hr, hv⟩ => ⟨hg, ht, hq, hr, hv⟩,
      fun ⟨hg, ht, hq, hr, hv⟩ => ⟨hg, ht, hq, hr, hv⟩⟩

/-- A part that is replaced as a whole and has a name. -/
theorem landsAgain_of_named {α : Type} [Named α] [Overlay α]
    (h : ∀ base layer : α, Overlay.overlay base layer = layer) (child : α) : LandsAgain child :=
  landsAgain_of_replacing h (sameAs_self rfl)

theorem Table.landsAgain {t : Table} (h : t.Repeatable) (hparts : t.SiblingsDistinct) :
    LandsAgain t where
  blank := by
    refine ⟨Table.empty t.name, sameAs_iff_name.mpr rfl, ?_⟩
    obtain ⟨name, owner, description, primaryKey, primaryKeyName, clusterIndex, parentSchema,
      parentTable, options, columns, foreignKeys, indexes, constraints, grants, rows⟩ := t
    simp only [Overlay.overlay, Table.empty, Siblings.overlay_nil, List.nil_append]
    cases rows <;> rfl
  onto b _ := by
    have hoptions := Siblings.overlay_again b.options hparts.options
      fun _ _ => landsAgain_of_replacing (fun _ _ => rfl) (sameAs_self rfl)
    have hcolumns := Siblings.overlay_again b.columns hparts.columns
      fun _ _ => landsAgain_of_named (fun _ _ => rfl) _
    have hindexes := Siblings.overlay_again b.indexes hparts.indexes
      fun _ _ => landsAgain_of_named (fun _ _ => rfl) _
    have hconstraints := Siblings.overlay_again b.constraints hparts.constraints
      fun _ _ => landsAgain_of_named (fun _ _ => rfl) _
    have hrows := RowBlock.overlayOption_again b.rows h.rows
    simp only [Overlay.overlay, hoptions, hcolumns, hindexes, hconstraints, hrows, h.grants,
      List.append_nil]

theorem Sequence.landsAgain {q : Sequence} (h : q.grants = []) : LandsAgain q where
  blank := by
    refine ⟨{ name := q.name }, sameAs_iff_name.mpr rfl, ?_⟩
    simp only [Overlay.overlay, List.nil_append]
  onto b _ := by simp only [Overlay.overlay, h, List.append_nil]

theorem View.landsAgain {v : View} (h : v.grants = []) (hqueries : Distinct v.queries) :
    LandsAgain v where
  blank := by
    refine ⟨{ name := v.name }, sameAs_iff_name.mpr rfl, ?_⟩
    simp only [Overlay.overlay, Siblings.overlay_nil, List.nil_append]
  onto b _ := by
    have hover := Siblings.overlay_again b.queries hqueries
      fun _ _ => landsAgain_of_replacing (fun _ _ => rfl) (sameAs_self rfl)
    simp only [Overlay.overlay, hover, h, List.append_nil]

theorem Routine.overlay_again (base : List Routine) {layer : List Routine}
    (hlayer : Distinct layer) (hbodies : ∀ r ∈ layer, Distinct r.bodies)
    (h : ∀ r ∈ layer, r.Repeatable) :
    Siblings.overlay (Siblings.overlay base layer) layer = Siblings.overlay base layer := by
  refine Siblings.overlay_again_of_taken base hlayer (fun r hr => (h r hr).sameAs_self)
    (fun r hr => Routine.overlay_self (h r hr) (hbodies r hr)) ?_
  intro b taken hsub htaken
  exact Routine.foldl_overlay_again (hlayer.sublist hsub) (fun r hr => hbodies r (hsub.mem hr))
    (fun r hr => h r (hsub.mem hr)) htaken

theorem Schema.landsAgain {s : Schema} (h : s.Repeatable) (hparts : s.SiblingsDistinct) :
    LandsAgain s where
  blank := by
    refine ⟨Schema.empty s.name, sameAs_iff_name.mpr rfl, ?_⟩
    simp only [Overlay.overlay, Schema.empty, Siblings.overlay_nil, List.nil_append]
  onto b _ := by
    have htables := Siblings.overlay_again b.tables hparts.tables
      fun t ht => Table.landsAgain (h.tables t ht) (hparts.parts t ht)
    have htypes := Siblings.overlay_again b.types hparts.types
      fun _ _ => landsAgain_of_named (fun _ _ => rfl) _
    have hsequences := Siblings.overlay_again b.sequences hparts.sequences
      fun q hq => Sequence.landsAgain (h.sequences q hq)
    have hroutines := Routine.overlay_again b.routines hparts.routines hparts.bodies h.routines
    have htriggers := Siblings.overlay_again b.triggers hparts.triggers
      fun _ _ => landsAgain_of_replacing (fun _ _ => rfl) (sameAs_self rfl)
    have hviews := Siblings.overlay_again b.views hparts.views
      fun v hv => View.landsAgain (h.views v hv) (hparts.queries v hv)
    simp only [Overlay.overlay, htables, htypes, hsequences, hroutines, htriggers, hviews,
      h.grants, List.append_nil]

/-! ## Definitions -/

/-- What is added is found when it is added again. -/
theorem appendNew_again {α : Type} {same : α → α → Bool} (hrefl : ∀ a, same a a)
    (base layer : List α) :
    appendNew same (appendNew same base layer) layer = appendNew same base layer :=
  appendNew_of_found fun _ ha => any_appendNew hrefl base ha

theorem Roles.overlay_again (base layer : Roles) :
    Overlay.overlay (Overlay.overlay base layer) layer = Overlay.overlay base layer := by
  simp only [Overlay.overlay, appendNew_again Name.same_self]

theorem Roles.overlay_self (layer : Roles) : Overlay.overlay layer layer = layer := by
  have hfound : ∀ role ∈ layer.custom, layer.custom.any fun other => Name.same other role :=
    fun role hrole => List.any_eq_true.mpr ⟨role, hrole, Name.same_self role⟩
  simp only [Overlay.overlay, appendNew_of_found hfound]

theorem Database.overlay_again (base : Database) {layer : Database}
    (h : Distinct layer.settings) :
    Overlay.overlay (Overlay.overlay base layer) layer = Overlay.overlay base layer := by
  have hsettings := Siblings.overlay_again base.settings h
    fun _ _ => landsAgain_of_named (fun _ _ => rfl) _
  obtain ⟨baseDialect, baseRoles, baseSettings⟩ := base
  obtain ⟨dialect, roles, settings⟩ := layer
  show Database.mk _ _ _ = Database.mk _ _ _
  rw [Database.mk.injEq]
  refine ⟨by cases dialect <;> rfl, ?_, hsettings⟩
  cases roles with
  | none => cases baseRoles <;> rfl
  | some r =>
    cases baseRoles with
    | none => exact congrArg some (Roles.overlay_self r)
    | some b => exact congrArg some (Roles.overlay_again b r)

namespace Definition

/-- The definition can be laid twice: it repeats nothing, and what its schemas hold can
be laid twice. -/
structure Repeatable (d : Definition) : Prop where
  siblings : d.SiblingsDistinct
  schemas : ∀ s ∈ d.schemas, s.Repeatable

instance (d : Definition) : Decidable d.Repeatable :=
  decidable_of_iff (d.SiblingsDistinct ∧ ∀ s ∈ d.schemas, s.Repeatable)
    ⟨fun ⟨hd, hs⟩ => ⟨hd, hs⟩, fun ⟨hd, hs⟩ => ⟨hd, hs⟩⟩

theorem database_overlay_again (base : Definition) {layer : Definition}
    (h : ∀ y ∈ layer.database, Distinct y.settings) :
    (Overlay.overlay (Overlay.overlay base layer) layer).database =
      (Overlay.overlay base layer).database := by
  cases hy : layer.database with
  | none => rw [database_overlay_of_none hy]
  | some y =>
    rw [database_overlay_of_some hy, database_overlay_of_some hy, Option.getD_some,
      Database.overlay_again _ (h y hy)]

/-- **A layer laid twice.** Whatever the base is, laying a layer that says what it means
once over it a second time changes nothing. -/
theorem overlay_twice (base : Definition) {layer : Definition} (h : layer.Repeatable) :
    Overlay.overlay (Overlay.overlay base layer) layer = Overlay.overlay base layer := by
  have hdatabase := database_overlay_again base h.siblings.settings
  have hschemas := Siblings.overlay_again base.schemas h.siblings.schemas
    fun s hs => Schema.landsAgain (h.schemas s hs) (h.siblings.parts s hs)
  have hlanguages := Siblings.overlay_again base.languages h.siblings.languages
    fun _ _ => landsAgain_of_named (fun _ _ => rfl) _
  have hrefl : ∀ snippet : Snippet, Identity.sameAs snippet snippet := fun _ => sameAs_self rfl
  have hsnippets := appendNew_again hrefl base.snippets layer.snippets
  show Definition.mk _ _ _ _ = Definition.mk _ _ _ _
  rw [Definition.mk.injEq]
  exact ⟨hdatabase, hschemas, hlanguages, hsnippets⟩

/-- A base that repeats tables and columns and has a malformed row. -/
def worn : Definition where
  schemas :=
    [{ name := "app"
       tables :=
        [{ name := "status", columns := [.typed "id" "int", .typed "ID" "text"]
           rows := some ⟨["label", "id", "ID"],
            [.ofValues ["new", "1", "1"], .ofValues ["2"], .ofValues ["old", "3", "3", "x"]]⟩ },
          { name := "STATUS" }]
       routines :=
        [{ name := "now", owner := "a"
           bodies :=
            [{ dialect := some .pgsql8, text := "a" }, { dialect := some .mssql10, text := "f" }] },
          { name := "now", bodies := [{ dialect := some .pgsql8, text := "b" }, { text := "?" }] }] }]

/-- A layer over it, with two routines that land on one, and rows that are new, changed
and added. -/
def patch : Definition where
  database := some { roles := some { custom := ["etl", "ETL"] } }
  schemas :=
    [{ name := "App", owner := "ops"
       tables :=
        [{ name := "Status", primaryKey := ["ID"], columns := [.typed "Id" "bigint"]
           rows := some ⟨["id", "color"], [.ofValues ["1", "red"], .ofValues ["4", "blue"]]⟩ },
          { name := "log" }]
       routines :=
        [{ name := "NOW"
           bodies :=
            [{ dialect := some .mysql5, text := "c" }, { dialect := some .pgsql8, text := "d" }] },
          { name := "Now", owner := "b", bodies := [{ dialect := some .mssql10, text := "e" }] }] }]
  snippets := [{ text := "x" }, { text := "x" }]

theorem overlay_twice_patch :
    patch.Repeatable ∧
    Overlay.overlay (Overlay.overlay worn patch) patch = Overlay.overlay worn patch ∧
    ((Overlay.overlay worn patch).schemas.flatMap Schema.tables).filterMap Table.rows =
      [⟨["label", "id", "ID", "color"],
        [⟨[some "new", some "1", some "1", some "red"], false⟩, .ofValues ["2"],
          .ofValues ["old", "3", "3", "x"], ⟨[none, some "4", none, some "blue"], false⟩]⟩] ∧
    ((Overlay.overlay worn patch).schemas.flatMap Schema.routines).map
      (fun r => (r.name, r.owner, r.bodies.map Routine.Body.text)) =
        [("now", "b", ["d", "e", "c"]), ("now", "", ["b", "?"])] := by
  have hpatch : patch.Repeatable := by decide +kernel
  exact ⟨hpatch, overlay_twice worn hpatch, by decide +kernel, by decide +kernel⟩

end Definition

end LayeredSchema
