import LayeredSchema.Datum.Coded
import Mathlib.Data.List.Nodup

/-!
# Looser documents

A document need not say what leaving it out would mean, and may say more than anybody asks
for. `Loosens` is one step away from how a document was written: somewhere in it a field is
dropped that holds what its absence means, or an entry is added under a key that is not
declared there. Any set of such fields goes in as many steps, a field before what it holds.

Reading looks at a record only through its declared keys, and for those a step does at most
one of two things (`Loosens.keeps`): the entry goes, where it may, or its value is loosened.
-/

namespace LayeredSchema

/-! ## Looking up entries after an edit -/

namespace Entries

variable {es : Entries} {key k : String} {x y : Datum} {i : Nat}

theorem lookup_set (h : es[i]? = some (k, x)) (key : String) (y : Datum) :
    (es.set i (k, y)).lookup key = es.lookup key ∨
      key = k ∧ es.lookup key = some x ∧ (es.set i (k, y)).lookup key = some y := by
  induction es generalizing i with
  | nil => cases h
  | cons e rest ih =>
    cases i with
    | zero =>
      obtain rfl : e = (k, x) := Option.some.inj h
      by_cases hkey : key = k
      · subst hkey
        exact .inr ⟨rfl, List.lookup_cons_self, List.lookup_cons_self⟩
      · refine .inl ?_
        have hne : (key == k) = false := beq_eq_false_iff_ne.mpr hkey
        rw [List.set_cons_zero, List.lookup_cons, List.lookup_cons, hne]
    | succ i =>
      rw [List.set_cons_succ, List.lookup_cons, List.lookup_cons]
      cases hkey : key == e.1 with
      | true => exact .inl rfl
      | false => exact ih h

theorem lookup_insertIdx (h : key ≠ k) : (es.insertIdx i (k, x)).lookup key = es.lookup key := by
  induction es generalizing i with
  | nil =>
    cases i with
    | zero => rw [List.insertIdx_zero, List.lookup_cons, beq_eq_false_iff_ne.mpr h]
    | succ i => rfl
  | cons e rest ih =>
    cases i with
    | zero => rw [List.insertIdx_zero, List.lookup_cons, beq_eq_false_iff_ne.mpr h]
    | succ i => rw [List.insertIdx_succ_cons, List.lookup_cons, List.lookup_cons, ih]

theorem lookup_eraseIdx (h : es[i]? = some (k, x)) (hkey : key ≠ k) :
    (es.eraseIdx i).lookup key = es.lookup key := by
  induction es generalizing i with
  | nil => rfl
  | cons e rest ih =>
    cases i with
    | zero =>
      obtain rfl : e = (k, x) := Option.some.inj h
      rw [List.eraseIdx_cons_zero, List.lookup_cons, beq_eq_false_iff_ne.mpr hkey]
    | succ i => rw [List.eraseIdx_cons_succ, List.lookup_cons, List.lookup_cons, ih h]

theorem lookup_of_single (h : es[i]? = some (k, x)) (hsingle : ∀ e ∈ es.eraseIdx i, e.1 ≠ k) :
    es.lookup k = some x := by
  induction es generalizing i with
  | nil => cases h
  | cons e rest ih =>
    cases i with
    | zero =>
      obtain rfl : e = (k, x) := Option.some.inj h
      exact List.lookup_cons_self
    | succ i =>
      rw [List.eraseIdx_cons_succ, List.forall_mem_cons] at hsingle
      rw [List.lookup_cons, beq_eq_false_iff_ne.mpr hsingle.1.symm]
      exact ih h hsingle.2

theorem lookup_eraseIdx_self (hsingle : ∀ e ∈ es.eraseIdx i, e.1 ≠ k) :
    (es.eraseIdx i).lookup k = none :=
  List.lookup_eq_none_iff.mpr fun e he => bne_iff_ne.mpr (hsingle e he).symm

end Entries

/-! ## One step -/

/-- One step, at one place of a document of the shape. -/
inductive Loosens : Shape → Datum → Datum → Prop where
  /-- A field goes that holds what leaving it out means. Its key leads to no other entry, as
  keys of documents do not. -/
  | drop {fields : List (FieldShape Shape)} {f : FieldShape Shape} {es : Entries} {x : Datum}
      {i : Nat} (hf : f ∈ fields) (hentry : es[i]? = some (f.key, x)) (habsent : f.absent = some x)
      (hsingle : ∀ e ∈ es.eraseIdx i, e.1 ≠ f.key) :
      Loosens (.record fields) (.record es) (.record (es.eraseIdx i))
  /-- An entry comes under a key that is not declared. -/
  | add {fields : List (FieldShape Shape)} {es : Entries} {key : String} {x : Datum} {i : Nat}
      (hkey : ∀ f ∈ fields, f.key ≠ key) :
      Loosens (.record fields) (.record es) (.record (es.insertIdx i (key, x)))
  /-- The step is made within a declared field, -/
  | field {fields : List (FieldShape Shape)} {f : FieldShape Shape} {es : Entries} {x y : Datum}
      {i : Nat} (hf : f ∈ fields) (hentry : es[i]? = some (f.key, x)) (h : Loosens f.shape x y) :
      Loosens (.record fields) (.record es) (.record (es.set i (f.key, y)))
  /-- or within an item of a list. -/
  | item {item : Shape} {xs : List Datum} {x y : Datum} {i : Nat} (hitem : xs[i]? = some x)
      (h : Loosens item x y) : Loosens (.list item) (.list xs) (.list (xs.set i y))

/-- What may be under the key of a field after a step, given what was there before. -/
inductive FieldShape.Keeps (f : FieldShape Shape) : Option Datum → Option Datum → Prop where
  | same (x : Option Datum) : f.Keeps x x
  | dropped {x : Datum} (h : f.absent = some x) : f.Keeps (some x) none
  | loosened {x y : Datum} (h : Loosens f.shape x y) : f.Keeps (some x) (some y)

namespace Loosens

variable {fields : List (FieldShape Shape)} {es es' : Entries}

/-- **What a step does to declared fields.** -/
theorem keeps (hnodup : (fields.map FieldShape.key).Nodup)
    (h : Loosens (.record fields) (.record es) (.record es')) {f : FieldShape Shape}
    (hf : f ∈ fields) : f.Keeps (es.lookup f.key) (es'.lookup f.key) := by
  cases h with
  | @drop _ g _ x i hg hentry habsent hsingle =>
    by_cases hkey : f.key = g.key
    · obtain rfl : f = g := List.inj_on_of_nodup_map hnodup hf hg hkey
      rw [Entries.lookup_of_single hentry hsingle, Entries.lookup_eraseIdx_self hsingle]
      exact .dropped habsent
    · rw [Entries.lookup_eraseIdx hentry hkey]
      exact .same _
  | add hkey =>
    rw [Entries.lookup_insertIdx (hkey f hf)]
    exact .same _
  | @field _ g _ x y i hg hentry hxy =>
    rcases Entries.lookup_set hentry f.key y with hsame | hchanged
    · rw [hsame]
      exact .same _
    · obtain ⟨hkey, hbefore, hafter⟩ := hchanged
      obtain rfl : f = g := List.inj_on_of_nodup_map hnodup hf hg hkey
      rw [hbefore, hafter]
      exact .loosened hxy

theorem exists_entries {x y : Datum} (h : Loosens (.record fields) x y) :
    ∃ es es', x = .record es ∧ y = .record es' := by
  cases h with
  | drop | add | field => exact ⟨_, _, rfl, rfl⟩

/-- Only records and lists can be changed, and they remain records and lists. -/
theorem ne_null {s : Shape} {x y : Datum} (h : Loosens s x y) : x ≠ .null ∧ y ≠ .null := by
  cases h with
  | drop | add | field | item => exact ⟨Datum.noConfusion, Datum.noConfusion⟩

end Loosens

end LayeredSchema
