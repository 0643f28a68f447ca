import LayeredSchema.Proofs.Reference.Inheritance
import LayeredSchema.Reference.Key

/-!
# Following keys

What it takes for a key to be found and followed, function by function: a key over names is a
column for each of them (`keyOver_eq_ok_iff`), and a foreign key leads to a key over the
foreign names on the table that it names (`reach_eq_ok_iff`). A key that has columns fails for
a fault of the definition only (`exists_unresolved_of_targetFor`), and so does every foreign
key of a table (`exists_unresolved_of_targetKey`).
-/

namespace LayeredSchema

variable {d : Definition}

theorem TableSlot.keyOver_eq_ok_iff {t : TableSlot d} {referrer : String} {names : List String}
    {k : Key d} : t.keyOver referrer names = .ok k ↔
      k.table = t ∧
        List.Forall₂ (fun name c => t.requireColumn referrer name = .ok c) names k.columns := by
  unfold keyOver
  rw [bind_eq_ok_iff]
  constructor
  · intro h
    obtain ⟨columns, hcolumns, hk⟩ := h
    obtain rfl : (⟨t, columns⟩ : Key d) = k := Except.ok.inj hk
    exact ⟨rfl, mapM_eq_ok_iff.mp hcolumns⟩
  · intro h
    obtain ⟨rfl, hcolumns⟩ := h
    exact ⟨k.columns, mapM_eq_ok_iff.mpr hcolumns, rfl⟩

namespace Key

variable {k target : Key d} {ref : KeyRef} {referrer : String}

theorem reach_eq_ok_iff : k.reach ref referrer = .ok target ↔
    ∃ t, d.findTable k.table.schemaAt ref.schema ref.table referrer = .ok t ∧
      ¬ (ref.columns ≠ [] ∧ ref.columns.length ≠ k.columns.length) ∧
      t.keyOver referrer (foreignNames k.names ref.columns) = .ok target := by
  unfold reach
  rw [bind_eq_ok_iff]
  refine exists_congr fun t => and_congr_right fun _ => ?_
  by_cases hcount : ref.columns ≠ [] ∧ ref.columns.length ≠ k.columns.length
  · simp [hcount]
  · rw [if_neg hcount, and_iff_right hcount]

theorem targetFor_eq_ok_iff : k.targetFor ref referrer = .ok target ↔
    k.columns ≠ [] ∧ k.reach ref referrer = .ok target := by
  unfold targetFor
  by_cases hcolumns : k.columns = []
  · simp [hcolumns]
  · rw [if_neg hcolumns, mapError_eq_ok_iff, and_iff_right hcolumns]

/-- A foreign key leads to the table that it names. -/
theorem findTable_of_targetFor (h : k.targetFor ref referrer = .ok target) :
    d.findTable k.table.schemaAt ref.schema ref.table referrer = .ok target.table := by
  obtain ⟨-, hreach⟩ := targetFor_eq_ok_iff.mp h
  obtain ⟨t, ht, -, htarget⟩ := reach_eq_ok_iff.mp hreach
  rwa [(TableSlot.keyOver_eq_ok_iff.mp htarget).1]

theorem exists_unresolved_of_targetFor {f : ResolveFailure} (hcolumns : k.columns ≠ [])
    (h : k.targetFor ref referrer = .error f) : ∃ e, f = .unresolved e := by
  rw [targetFor, if_neg hcolumns, mapError_eq_error_iff] at h
  obtain ⟨e, -, rfl⟩ := h
  exact ⟨e, rfl⟩

end Key

namespace TableSlot

variable {t : TableSlot d} {fk : ForeignKey}

theorem targetKey_eq_ok_iff {k : Key d} : t.targetKey fk = .ok k ↔
    fk.columns ≠ [] ∧ ∃ own, t.keyOver (t.referrer fk.name) fk.columns = .ok own ∧
      own.targetFor fk.target (t.referrer fk.name) = .ok k := by
  unfold targetKey
  by_cases hcolumns : fk.columns = []
  · simp [hcolumns]
  · rw [if_neg hcolumns, and_iff_right hcolumns, bind_eq_ok_iff]
    simp only [mapError_eq_ok_iff]

theorem exists_unresolved_of_targetKey {f : ResolveFailure} (h : t.targetKey fk = .error f) :
    ∃ e, f = .unresolved e := by
  unfold targetKey at h
  split at h
  next => exact ⟨_, (Except.error.inj h).symm⟩
  next hcolumns =>
    rcases bind_eq_error_iff.mp h with hown | ⟨own, hown, htarget⟩
    · obtain ⟨e, -, rfl⟩ := mapError_eq_error_iff.mp hown
      exact ⟨e, rfl⟩
    · refine Key.exists_unresolved_of_targetFor ?_ htarget
      -- the key has a column for each of the names, of which there are some
      have hall := (keyOver_eq_ok_iff.mp (mapError_eq_ok_iff.mp hown)).2
      intro hnil
      rw [hnil, List.forall₂_nil_right_iff] at hall
      exact hcolumns hall

end TableSlot

end LayeredSchema
