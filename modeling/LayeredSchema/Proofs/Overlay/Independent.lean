import LayeredSchema.Proofs.Overlay.Again
import LayeredSchema.Proofs.Overlay.Landing

/-!
# Layers that commute

Two layers are *independent* if no schema or language of the one is the same as one
of the other, no text of a snippet is in both, and at most one of them says anything
of the database. It does not matter then which of them is laid first
(`overlay_comm_of_independent`): what the base declares becomes the same, in its
place, and only what the layers add may stand in another order behind it
(`Siblings.AgreeOver`).

Of siblings it holds because two layers with nothing in common come to one
(`Siblings.overlay_append`), and because nothing can be the same as a child of each:
in every place of the base only one of them lands (`landingAt_append_comm`). Neither
the base nor a layer has to be free of repetitions for that.
-/

namespace LayeredSchema

namespace Siblings

variable {α : Type}

/-- Two lists that agree wherever a base has something, and hold the same in some order. -/
structure AgreeOver (base some other : List α) : Prop where
  length_le : base.length ≤ some.length
  inPlace : ∀ i < base.length, some[i]? = other[i]?
  perm : some.Perm other

/-- What has become of the base, followed by additions in either order. -/
theorem agreeOver_append {base kept : List α} (h : kept.length = base.length)
    (first second : List α) :
    AgreeOver base (kept ++ (first ++ second)) (kept ++ (second ++ first)) where
  length_le := by
    rw [List.length_append, h]
    exact Nat.le_add_right _ _
  inPlace i hi := by
    rw [← h] at hi
    rw [List.getElem?_append_left hi, List.getElem?_append_left hi]
  perm := List.perm_append_comm.append_left kept

variable [Identity α] {base first second : List α} {i : Nat}

/-- If a child of the first layer lands in a place, none of the second does. -/
theorem landingAt_append_comm [SymmIdentity α] [TransIdentity α]
    (h : ∀ a ∈ first, ∀ c ∈ second, ¬ Identity.sameAs a c) :
    landingAt base i (first ++ second) = landingAt base i (second ++ first) := by
  have happend : ∀ l m : List α,
      landingAt base i (l ++ m) = landingAt base i l ++ landingAt base i m :=
    fun l m => List.filter_append l m
  rw [happend, happend]
  cases hfirst : landingAt base i first with
  | nil => rw [List.nil_append, List.append_nil]
  | cons a rest =>
    have ha : a ∈ landingAt base i first := hfirst ▸ List.mem_cons_self
    obtain ⟨hafirst, haland⟩ := List.mem_filter.mp ha
    obtain ⟨b, hb, hba, -⟩ := landing?_eq_some_iff.mp (of_decide_eq_true haland)
    have hsecond : landingAt base i second = [] := by
      refine landingAt_eq_nil hb fun c hc hbc => ?_
      exact h a hafirst c hc (TransIdentity.trans (SymmIdentity.symm hba) hbc)
    rw [hsecond, List.nil_append, List.append_nil]

/-- **Independent layers of siblings commute.** -/
theorem agreeOver_overlay [Overlay α] [LawfulOverlay α] [TransIdentity α]
    (h : ∀ a ∈ first, ∀ c ∈ second, ¬ Identity.sameAs a c) :
    AgreeOver base (overlay (overlay base first) second)
      (overlay (overlay base second) first) := by
  have hflip : ∀ c ∈ second, ∀ a ∈ first, ¬ Identity.sameAs c a :=
    fun c hc a ha hca => h a ha c hc (SymmIdentity.symm hca)
  rw [← overlay_append h, ← overlay_append hflip, overlay_eq (alwaysSteady_of_trans _),
    overlay_eq (alwaysSteady_of_trans _)]
  -- the same lands in each place, and what lands nowhere is listed layer by layer
  simp only [landingAt_append_comm h, landingNowhere, List.filter_append]
  exact agreeOver_append List.length_mapIdx _ _

end Siblings

open Siblings (AgreeOver agreeOver_append agreeOver_overlay)

/-- What only adds commutes up to the order of what it adds. -/
theorem agreeOver_appendNew {α : Type} {same : α → α → Bool} {base first second : List α}
    (h : ∀ a ∈ first, ∀ c ∈ second, ¬ same a c) (hflip : ∀ c ∈ second, ∀ a ∈ first, ¬ same c a) :
    AgreeOver base (appendNew same (appendNew same base first) second)
      (appendNew same (appendNew same base second) first) := by
  rw [appendNew_appendNew_of_apart h, appendNew_appendNew_of_apart hflip]
  exact agreeOver_append rfl _ _

namespace Definition

/-- Two layers that have nothing in common: no name of a schema or a language, no text of a
snippet, and a database is declared by one of them at most. -/
structure Independent (first second : Definition) : Prop where
  schemas : ∀ s ∈ first.schemas, ∀ r ∈ second.schemas, ¬ Name.same s.name r.name
  languages : ∀ l ∈ first.languages, ∀ m ∈ second.languages, ¬ Name.same l.name m.name
  snippets : ∀ s ∈ first.snippets, ∀ r ∈ second.snippets, s.text ≠ r.text
  database : first.database = none ∨ second.database = none

theorem database_overlay_congr {a b layer : Definition} (h : a.database = b.database) :
    (Overlay.overlay a layer).database = (Overlay.overlay b layer).database := by
  cases hlayer : layer.database with
  | none => rw [database_overlay_of_none hlayer, database_overlay_of_none hlayer, h]
  | some y => rw [database_overlay_of_some hlayer, database_overlay_of_some hlayer, h]

theorem sameAs_snippet_iff {s r : Snippet} : Identity.sameAs s r ↔ s.text = r.text := by
  rw [sameAs_iff_key]
  simp only [Keyed.key, Option.some.injEq]
  exact ⟨fun ⟨_, hs, hr⟩ => hs.trans hr.symm, fun h => ⟨_, h, rfl⟩⟩

/-- **Independent layers commute.** Laid over a base in either order, they leave the same
database and the same in every place of the base, and add the same beyond it, in some order. -/
theorem overlay_comm_of_independent (base : Definition) {first second : Definition}
    (h : first.Independent second) :
    (Overlay.overlay (Overlay.overlay base first) second).database =
        (Overlay.overlay (Overlay.overlay base second) first).database ∧
      AgreeOver base.schemas (Overlay.overlay (Overlay.overlay base first) second).schemas
        (Overlay.overlay (Overlay.overlay base second) first).schemas ∧
      AgreeOver base.languages (Overlay.overlay (Overlay.overlay base first) second).languages
        (Overlay.overlay (Overlay.overlay base second) first).languages ∧
      AgreeOver base.snippets (Overlay.overlay (Overlay.overlay base first) second).snippets
        (Overlay.overlay (Overlay.overlay base second) first).snippets := by
  refine ⟨?_, agreeOver_overlay ?_, agreeOver_overlay ?_, agreeOver_appendNew ?_ ?_⟩
  · -- the layer without a database changes that of no definition
    rcases h.database with hnone | hnone
    · rw [database_overlay_of_none hnone]
      exact database_overlay_congr (database_overlay_of_none hnone)
    · rw [database_overlay_of_none hnone]
      exact (database_overlay_congr (database_overlay_of_none hnone)).symm
  · intro s hs r hr hsame
    have hname := sameAs_iff_name.mp hsame
    exact h.schemas s hs r hr (Name.same_iff.mpr hname)
  · intro l hl m hm hsame
    have hname := sameAs_iff_name.mp hsame
    exact h.languages l hl m hm (Name.same_iff.mpr hname)
  · intro s hs r hr hsame
    exact h.snippets s hs r hr (sameAs_snippet_iff.mp hsame)
  · intro r hr s hs hsame
    exact h.snippets s hs r hr (sameAs_snippet_iff.mp hsame).symm

/-- A schema twice, under two spellings, and a snippet twice. -/
def market : Definition where
  schemas :=
    [{ name := "shop", tables := [{ name := "users", columns := [.typed "id" "int"] }] },
     { name := "stock", owner := "ann" },
     { name := "Shop" }]
  languages := [{ name := "plpgsql" }]
  snippets := [{ text := "vacuum" }, { text := "vacuum" }]

/-- A layer that lands on the first schema and adds one, and repeats a snippet. -/
def till : Definition where
  database := some { dialect := some .pgsql8 }
  schemas :=
    [{ name := "SHOP", tables := [{ name := "Users", columns := [.typed "mail" "text"] }] },
     { name := "crm" }]
  languages := [{ name := "python" }]
  snippets := [{ text := "analyze" }, { text := "analyze", author := "bob" }]

/-- A layer that lands on the second schema and adds another one. -/
def depot : Definition where
  schemas := [{ name := "audit" }, { name := "Stock", owner := "eve" }]
  languages := [{ name := "PLPGSQL", trusted := true }]
  snippets := [{ text := "vacuum" }, { text := "checkpoint" }]

theorem overlay_comm_of_independent_till_depot :
    till.Independent depot ∧
      AgreeOver market.schemas (Overlay.overlay (Overlay.overlay market till) depot).schemas
        (Overlay.overlay (Overlay.overlay market depot) till).schemas ∧
      (Overlay.overlay (Overlay.overlay market till) depot).schemas.map Schema.name =
        ["shop", "stock", "Shop", "crm", "audit"] ∧
      (Overlay.overlay (Overlay.overlay market depot) till).schemas.map Schema.name =
        ["shop", "stock", "Shop", "audit", "crm"] ∧
      (Overlay.overlay (Overlay.overlay market till) depot).snippets.map Snippet.text =
        ["vacuum", "vacuum", "analyze", "checkpoint"] := by
  have hindependent : till.Independent depot :=
    ⟨by decide +kernel, by decide +kernel, by decide +kernel, .inr rfl⟩
  obtain ⟨-, hschemas, -, -⟩ := overlay_comm_of_independent market hindependent
  exact ⟨hindependent, hschemas, by decide +kernel, by decide +kernel, by decide +kernel⟩

end Definition

end LayeredSchema
