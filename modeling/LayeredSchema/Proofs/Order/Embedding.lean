import LayeredSchema.Proofs.Order.Dependency
import LayeredSchema.Proofs.Reference.Embedding

/-!
# Dependencies within definitions

Where a definition is embedded in another one, its tables declare there the references
that they declare here (`declares_iff`), and those that can be followed lead to the same
places. So they need there what they need here, and nothing else (`needs_iff`).
-/

namespace LayeredSchema.Definition.Embedding

variable {d more : Definition} (e : d.Embedding more)

/-- The place of a reference. -/
def reference : Reference d → Reference more
  | .column c => .column (e.column c)
  | .foreignKey t fk => .foreignKey (e.table t) fk
  | .constraint t c => .constraint (e.table t) c

/-- **Tables declare what they declared.** -/
theorem declares_iff {t : TableSlot d} {r : Reference more} :
    (e.table t).Declares r ↔ ∃ s, t.Declares s ∧ e.reference s = r := by
  constructor
  · intro hr
    generalize ht : e.table t = u at hr
    cases hr with
    | column c hc =>
      obtain ⟨b, rfl, rfl⟩ := e.exists_column ht.symm
      exact ⟨.column b, .column b (by rwa [e.column_column] at hc), rfl⟩
    | foreignKey _ fk hfk =>
      subst ht
      exact ⟨.foreignKey t fk, .foreignKey t fk ((e.mem_foreignKeys t fk).mp hfk), rfl⟩
    | constraint _ c hc hkind htable =>
      subst ht
      exact ⟨.constraint t c, .constraint t c ((e.mem_constraints t c).mp hc) hkind htable, rfl⟩
  · intro hs
    obtain ⟨s, hs, rfl⟩ := hs
    cases hs with
    | column c hc =>
      rw [← e.owner_column]
      exact .column _ (by rwa [e.column_column])
    | foreignKey _ fk hfk => exact .foreignKey _ fk ((e.mem_foreignKeys t fk).mpr hfk)
    | constraint _ c hc hkind htable =>
      exact .constraint _ c ((e.mem_constraints t c).mpr hc) hkind htable

theorem map_table {x : Except ResolveFailure (Key d)} {y : Except ResolveFailure (Key more)}
    (hxy : ∀ k, x = .ok k → y = .ok (e.key k)) {u : TableSlot d}
    (hx : x.map Key.table = .ok u) : y.map Key.table = .ok (e.table u) := by
  cases x with
  | error _ => cases hx
  | ok k =>
    obtain rfl : k.table = u := Except.ok.inj hx
    rw [hxy k rfl]
    rfl

theorem target_reference {r : Reference d} {u : TableSlot d} (hr : r.target = .ok u) :
    (e.reference r).target = .ok (e.table u) := by
  cases r with
  | column c => exact e.map_table (fun _ => e.targetKey_column) hr
  | foreignKey t fk => exact e.map_table (fun _ => e.targetKey_table) hr
  | constraint t c =>
    exact mapError_eq_ok_iff.mpr (e.constraintTarget_table (mapError_eq_ok_iff.mp hr))

variable {options : OrderOptions} {small : Digraph (TableSlot d)} {big : Digraph (TableSlot more)}

/-- **Tables need what they needed.** -/
theorem needs_iff (hsmall : d.dependencyGraph options = .ok small)
    (hbig : more.dependencyGraph options = .ok big) (t : TableSlot d) (b : TableSlot more) :
    big.Needs (e.table t) b ↔ ∃ u, small.Needs t u ∧ e.table u = b := by
  simp only [Definition.needs_iff hbig, Definition.needs_iff hsmall, e.declares_iff]
  constructor
  · intro hneeds
    obtain ⟨⟨_, ⟨r, hr, rfl⟩, hb⟩, hself⟩ := hneeds
    -- the reference could be followed before, and leads to the same place
    obtain ⟨u, hu⟩ := exists_target hsmall hr
    obtain rfl : e.table u = b := Except.ok.inj ((e.target_reference hu).symm.trans hb)
    refine ⟨u, ⟨⟨r, hr, hu⟩, fun hut => hself ⟨congrArg e.table hut.1, hut.2⟩⟩, rfl⟩
  · intro hneeds
    obtain ⟨u, ⟨⟨r, hr, hu⟩, hself⟩, rfl⟩ := hneeds
    refine ⟨⟨_, ⟨r, hr, rfl⟩, e.target_reference hu⟩, fun hut => hself ⟨?_, hut.2⟩⟩
    exact e.table_injective hut.1

end LayeredSchema.Definition.Embedding
