import LayeredSchema.Proofs.Traversal
import LayeredSchema.Proofs.Validation.Rules

/-!
# Layers keep what validation asks for

Every rule but one is kept by layers, and each by itself: if a base and a layer
meet it, so does the layer laid over the base (`Table.Meets.overlay`,
`Schema.Meets.overlay`, `Definition.Meets.overlay`), and so does a whole stack
(`Definition.Meets.stack`).

The exception is the rule for routines, because sameness of routines is not
transitive. A routine of the layer with bodies for two dialects may be the same
as two routines of the base that were different from each other; laid over the
first of them it makes it the same as the second. Such a routine *bridges* the
two (`Schema.Bridges`), and that is the only way the rule can fail
(`meets_duplicateRoutine_overlay_iff`).
-/

namespace LayeredSchema

open Siblings (Distinct forall_overlay overlay_mem_overlay mem_overlay_cases)
open Violation (Code)

/-! ## Tables -/

namespace Table

variable {base layer : Table}

/-- The columns of a key that the layer has are found in the result. -/
theorem Meets.keyColumns (hlayer : layer.Meets .primaryKeyUnknownColumn) :
    (Overlay.overlay base layer).Meets .primaryKeyUnknownColumn := by
  intro hparent name hname
  obtain ⟨c, hc, hcname⟩ := Siblings.isSome_named?_iff.mp (hlayer hparent name hname)
  have hsame : Identity.sameAs c c := sameAs_iff_name.mpr rfl
  obtain ⟨x, hx, hxc⟩ := Siblings.exists_sameAs_overlay.mpr (.inr ⟨c, hc, hsame⟩)
  exact Siblings.isSome_named?_iff.mpr ⟨x, hx, (sameAs_iff_name.mp hxc).trans hcname⟩

theorem Meets.overlay {c : Code} (hbase : base.Meets c) (hlayer : layer.Meets c) :
    (Overlay.overlay base layer).Meets c := by
  cases c with
  | duplicateColumn => exact Distinct.overlay hbase hlayer
  | duplicateIndex => exact Distinct.overlay hbase hlayer
  | duplicateConstraint => exact Distinct.overlay hbase hlayer
  | columnForeignKeyIncomplete => exact forall_overlay hbase hlayer fun _ c hc _ _ => hlayer c hc
  | primaryKeyUnknownColumn => exact Meets.keyColumns hlayer
  | rowArity => exact RowBlock.WellFormed.overlayOption hbase hlayer layer.primaryKey
  -- foreign keys are those of the layer; the other codes are not about tables
  | duplicateForeignKey => exact hlayer
  | foreignKeyMissingName => exact hlayer
  | foreignKeyMissingColumns => exact hlayer
  | _ => trivial

end Table

/-! ## Schemas -/

namespace Schema

variable {base layer : Schema}

theorem Meets.overlay {c : Code} (hc : c ≠ .duplicateRoutine) (hbase : base.Meets c)
    (hlayer : layer.Meets c) : (Overlay.overlay base layer).Meets c := by
  cases c with
  | duplicateTable => exact Distinct.overlay hbase hlayer
  | duplicateType => exact Distinct.overlay hbase hlayer
  | duplicateSequence => exact Distinct.overlay hbase hlayer
  | duplicateTrigger => exact Distinct.overlay hbase hlayer
  | duplicateView => exact Distinct.overlay hbase hlayer
  | duplicateRoutine => exact absurd rfl hc
  | typeKindMismatch => exact forall_overlay hbase hlayer fun _ t ht _ _ => hlayer t ht
  | bodyMissingDialect =>
    refine forall_overlay hbase hlayer ?_
    intro b child hchild hb _
    have hbodies : ∀ body ∈ child.bodies, body.dialect ≠ none := hlayer child hchild
    exact forall_overlay hb hbodies fun _ body hbody _ _ => hbodies body hbody
  | _ => exact forall_overlay hbase hlayer fun b child hchild hb _ => hb.overlay (hlayer child hchild)

/-- A routine of the layer is the same as two routines of the base. -/
def Bridges (base layer : Schema) : Prop :=
  ∃ r ∈ layer.routines, ∃ r₁ r₂, [r₁, r₂].Sublist base.routines ∧
    Identity.sameAs r₁ r ∧ Identity.sameAs r₂ r

/-- The rule for routines is kept unless a routine of the layer bridges two of the
base. -/
theorem meets_duplicateRoutine_overlay_iff (hbase : base.Meets .duplicateRoutine)
    (hlayer : layer.Meets .duplicateRoutine) :
    (Overlay.overlay base layer).Meets .duplicateRoutine ↔ ¬ base.Bridges layer := by
  obtain ⟨hbodies, hdistinct⟩ := hbase
  obtain ⟨hlayerBodies, hlayerDistinct⟩ := hlayer
  -- bodies are known by their dialects, and that much is transitive
  have hkept : ∀ r ∈ (Overlay.overlay base layer).routines, Distinct r.bodies :=
    forall_overlay hbodies hlayerBodies fun b child hchild hb _ =>
      hb.overlay (hlayerBodies child hchild)
  have hiff := Siblings.distinct_overlay_iff hdistinct hlayerDistinct
  rw [List.pairwise_iff_forall_sublist] at hiff
  constructor
  · intro hmeets hbridge
    obtain ⟨r, hr, r₁, r₂, hsub, h₁, h₂⟩ := hbridge
    exact hiff.mp hmeets.2 hsub r hr ⟨h₁, h₂⟩
  · intro hbridge
    refine ⟨hkept, hiff.mpr ?_⟩
    intro r₁ r₂ hsub r hr hboth
    exact hbridge ⟨r, hr, r₁, r₂, hsub, hboth.1, hboth.2⟩

end Schema

/-! ## Definitions -/

namespace Definition

variable {base layer : Definition}

theorem Meets.overlay {c : Code} (hc : c ≠ .duplicateRoutine) (hbase : base.Meets c)
    (hlayer : layer.Meets c) : (Overlay.overlay base layer).Meets c := by
  cases c with
  | duplicateSchema => exact Distinct.overlay hbase hlayer
  | duplicateLanguage => exact Distinct.overlay hbase hlayer
  | _ =>
    exact forall_overlay hbase hlayer fun b child hchild hb _ => hb.overlay hc (hlayer child hchild)

/-- A rule that every document meets is met by what they come to. -/
theorem Meets.stack {c : Code} (hc : c ≠ .duplicateRoutine) {documents : List Definition}
    (h : ∀ d ∈ documents, d.Meets c) : (stack documents).Meets c := by
  cases documents with
  | nil =>
    show empty.Meets c
    rw [← unreported_iff]
    intro v hv
    exact absurd hv List.not_mem_nil
  | cons base layers =>
    obtain ⟨hbase, hlayers⟩ := List.forall_mem_cons.mp h
    show (layers.foldl Overlay.overlay base).Meets c
    clear h
    induction layers generalizing base with
    | nil => exact hbase
    | cons layer layers ih =>
      obtain ⟨hlayer, hrest⟩ := List.forall_mem_cons.mp hlayers
      exact ih (Overlay.overlay base layer) (hbase.overlay hc hlayer) hrest

/-- In a schema that both have, a routine of the layer bridges two of the base. -/
def Bridges (base layer : Definition) : Prop :=
  ∃ s ∈ layer.schemas, ∃ b ∈ base.schemas, Identity.sameAs b s ∧ b.Bridges s

theorem meets_duplicateRoutine_overlay_iff (hbase : ∀ c, base.Meets c)
    (hlayer : ∀ c, layer.Meets c) :
    (Overlay.overlay base layer).Meets .duplicateRoutine ↔ ¬ base.Bridges layer := by
  have hschemas : Distinct base.schemas := hbase .duplicateSchema
  have hlayerSchemas : Distinct layer.schemas := hlayer .duplicateSchema
  have hroutines : ∀ s ∈ base.schemas, s.Meets .duplicateRoutine := hbase .duplicateRoutine
  have hlayerRoutines : ∀ s ∈ layer.schemas, s.Meets .duplicateRoutine :=
    hlayer .duplicateRoutine
  constructor
  · intro h hex
    obtain ⟨s, hs, b, hb, hbs, hbridge⟩ := hex
    have hmem := overlay_mem_overlay hschemas hlayerSchemas hb hs hbs
    have hmeets : (Overlay.overlay b s).Meets .duplicateRoutine := h (Overlay.overlay b s) hmem
    exact (Schema.meets_duplicateRoutine_overlay_iff (hroutines b hb)
      (hlayerRoutines s hs)).mp hmeets hbridge
  · intro hbridge x hx
    -- a schema of the result stood in one of the two or was laid over one of the same name
    rcases mem_overlay_cases hlayerSchemas hx with hx | hx | ⟨b, hb, s, hs, hbs, rfl⟩
    · exact hroutines x hx
    · exact hlayerRoutines x hx
    · refine (Schema.meets_duplicateRoutine_overlay_iff (hroutines b hb)
        (hlayerRoutines s hs)).mpr fun h => ?_
      exact hbridge ⟨s, hs, b, hb, hbs, h⟩

/-! ## The theorem -/

theorem forall_code_eq_iff {d : Definition} :
    (∀ v ∈ d.violations, v.code = .duplicateRoutine) ↔
      ∀ c, c ≠ .duplicateRoutine → d.Meets c := by
  simp only [← unreported_iff]
  constructor
  · intro h c hc v hv hvc
    exact hc (hvc.symm.trans (h v hv))
  · intro h v hv
    by_contra hne
    exact h v.code hne v hv rfl

/-- **Valid documents stay valid but for bridged routines.** A valid layer over a
valid base makes no violations but of routines declared more than once, and
makes them exactly if a routine of the layer is the same as two of the base. So
no stack of valid documents has other violations. -/
theorem violations_of_valid_layers :
    (∀ base layer : Definition, base.validate = .ok () → layer.validate = .ok () →
      (∀ v ∈ (Overlay.overlay base layer).violations, v.code = .duplicateRoutine) ∧
      ((∃ v ∈ (Overlay.overlay base layer).violations, v.code = .duplicateRoutine) ↔
        base.Bridges layer)) ∧
    ∀ documents : List Definition, (∀ d ∈ documents, d.validate = .ok ()) →
      ∀ v ∈ (stack documents).violations, v.code = .duplicateRoutine := by
  simp only [validate_eq_ok_iff]
  constructor
  · intro base layer hbase hlayer
    have hothers : ∀ c, c ≠ .duplicateRoutine → (Overlay.overlay base layer).Meets c :=
      fun c hc => (hbase c).overlay hc (hlayer c)
    refine ⟨forall_code_eq_iff.mpr hothers, ?_⟩
    rw [← not_iff_not, ← meets_duplicateRoutine_overlay_iff hbase hlayer, ← unreported_iff]
    simp only [Violation.Unreported, not_exists, not_and, ne_eq]
  · intro documents h
    have hothers : ∀ c, c ≠ .duplicateRoutine → (stack documents).Meets c :=
      fun c hc => Meets.stack hc fun d hd => h d hd c
    exact forall_code_eq_iff.mpr hothers

/-- A routine for two dialects, declared once for each. -/
def apart : Definition where
  schemas :=
    [{ name := "public"
       tables := [{ name := "users", primaryKey := ["ID"], columns := [.typed "id" "int"] }]
       routines :=
        [{ name := "now_utc", bodies := [{ dialect := some .pgsql8, text := "a" }] },
         { name := "now_utc", bodies := [{ dialect := some .mysql5, text := "b" }] }] }]

/-- The same routine, declared once for both. -/
def together : Definition where
  schemas :=
    [{ name := "PUBLIC"
       routines :=
        [{ name := "NOW_UTC"
           bodies :=
            [{ dialect := some .mysql5, text := "c" },
             { dialect := some .pgsql8, text := "d" }] }] }]

theorem violations_of_valid_layers_together :
    apart.validate = .ok () ∧ together.validate = .ok () ∧ apart.Bridges together ∧
      (∃ v ∈ (Overlay.overlay apart together).violations, v.code = .duplicateRoutine) ∧
      (∀ v ∈ (Overlay.overlay apart together).violations, v.code = .duplicateRoutine) ∧
      ∀ v ∈ (stack [together, apart]).violations, v.code = .duplicateRoutine := by
  have hbase : apart.validate = .ok () := eq_ok_of_toOption (by decide +kernel)
  have hlayer : together.validate = .ok () := eq_ok_of_toOption (by decide +kernel)
  have hviolation : ∃ v ∈ (Overlay.overlay apart together).violations,
      v.code = .duplicateRoutine := by decide +kernel
  obtain ⟨hoverlay, hstack⟩ := violations_of_valid_layers
  obtain ⟨honly, hiff⟩ := hoverlay apart together hbase hlayer
  refine ⟨hbase, hlayer, hiff.mp hviolation, hviolation, honly, ?_⟩
  exact hstack [together, apart] (by simp [hbase, hlayer])

end Definition

end LayeredSchema
