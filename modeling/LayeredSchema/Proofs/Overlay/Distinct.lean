import LayeredSchema.Overlay.Definition
import LayeredSchema.Proofs.Siblings

/-!
# Definitions without repetitions

A definition has `SiblingsDistinct` when no two siblings are the same, at any
level and in any list whose members are known by something: not in its schemas,
its languages or its settings, not in what a schema holds, and not in the parts
of a table, the bodies of a routine or the queries of a view. Snippets, custom
roles, grants and foreign keys are no such lists: layers do not match them
sibling by sibling.
-/

namespace LayeredSchema

open Siblings (Distinct)

/-- No two options, columns, indexes or constraints of the table are the same. -/
structure Table.SiblingsDistinct (t : Table) : Prop where
  options : Distinct t.options
  columns : Distinct t.columns
  indexes : Distinct t.indexes
  constraints : Distinct t.constraints

instance (t : Table) : Decidable t.SiblingsDistinct :=
  decidable_of_iff (Distinct t.options ∧ Distinct t.columns ∧ Distinct t.indexes ∧
      Distinct t.constraints)
    ⟨fun ⟨ho, hc, hi, hk⟩ => ⟨ho, hc, hi, hk⟩, fun ⟨ho, hc, hi, hk⟩ => ⟨ho, hc, hi, hk⟩⟩

/-- No two objects of one kind in the schema are the same, nor any parts of them. -/
structure Schema.SiblingsDistinct (s : Schema) : Prop where
  tables : Distinct s.tables
  types : Distinct s.types
  sequences : Distinct s.sequences
  routines : Distinct s.routines
  triggers : Distinct s.triggers
  views : Distinct s.views
  parts : ∀ t ∈ s.tables, t.SiblingsDistinct
  bodies : ∀ r ∈ s.routines, Distinct r.bodies
  queries : ∀ v ∈ s.views, Distinct v.queries

instance (s : Schema) : Decidable s.SiblingsDistinct :=
  decidable_of_iff
    ((Distinct s.tables ∧ Distinct s.types ∧ Distinct s.sequences ∧ Distinct s.routines ∧
        Distinct s.triggers ∧ Distinct s.views) ∧
      (∀ t ∈ s.tables, t.SiblingsDistinct) ∧ (∀ r ∈ s.routines, Distinct r.bodies) ∧
      ∀ v ∈ s.views, Distinct v.queries)
    ⟨fun ⟨⟨ht, hu, hq, hr, hg, hv⟩, hp, hb, hw⟩ => ⟨ht, hu, hq, hr, hg, hv, hp, hb, hw⟩,
      fun ⟨ht, hu, hq, hr, hg, hv, hp, hb, hw⟩ => ⟨⟨ht, hu, hq, hr, hg, hv⟩, hp, hb, hw⟩⟩

/-- No two siblings of the definition are the same, at any level. -/
structure Definition.SiblingsDistinct (d : Definition) : Prop where
  settings : ∀ database ∈ d.database, Distinct database.settings
  schemas : Distinct d.schemas
  languages : Distinct d.languages
  parts : ∀ s ∈ d.schemas, s.SiblingsDistinct

instance (d : Definition) : Decidable d.SiblingsDistinct :=
  decidable_of_iff ((∀ database ∈ d.database, Distinct database.settings) ∧ Distinct d.schemas ∧
      Distinct d.languages ∧ ∀ s ∈ d.schemas, s.SiblingsDistinct)
    ⟨fun ⟨hc, hs, hl, hp⟩ => ⟨hc, hs, hl, hp⟩, fun ⟨hc, hs, hl, hp⟩ => ⟨hc, hs, hl, hp⟩⟩

end LayeredSchema
