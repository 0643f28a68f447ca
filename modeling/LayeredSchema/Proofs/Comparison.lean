import LayeredSchema.Entity.Schema
import LayeredSchema.Proofs.Overlay.Kinds
import Mathlib.Data.Finset.Insert
import Mathlib.Data.List.Forall2

/-!
# What comparison for a dialect means

To compare two declarations for a dialect is to ask whether both say anything to the dialect,
and then whether they *mean* the same there (`ComparesBy`). The meaning is the canonical form
of the declaration: names folded, the blanks around SQL cut, and what the dialect does not read
left out. So the laws of comparison are those of equality (`LawfulComparison`), but that a
declaration which says nothing to the dialect is not even equal to itself: a storage option or
a body that was written for another one, a routine without a body for it, a trigger that is
meant for another one.

The events of a trigger and the roles and permissions of a grant mean the set of their folded
names (`Name.sameSet_iff`), so that order, repetition and case are nothing to them
(`Name.folded_eq_of_reworded`).
-/

namespace LayeredSchema

open Comparable (equalFor)

/-! ## Names up to their spelling -/

theorem map_eq_of_forall₂ {α κ : Type} {key : α → κ} {as bs : List α}
    (h : List.Forall₂ (fun a b => key a = key b) as bs) : as.map key = bs.map key := by
  induction h with
  | nil => rfl
  | cons hkey _ ih => rw [List.map_cons, List.map_cons, hkey, ih]

namespace Name

/-- The spellings differ in the case of ASCII letters alone. -/
def Recased (a b : String) : Prop :=
  List.Forall₂ (fun c d => d = c ∨ d = c.toLower ∨ d = c.toUpper) a.toList b.toList

/-- The second list comes from the first by putting the names in another order, repeating
some of them and changing the case of letters, any number of times. -/
inductive Reworded : List String → List String → Prop
  | reorder {names others : List String} (h : names.Perm others) : Reworded names others
  | again {names : List String} {name : String} (h : name ∈ names) :
      Reworded names (name :: names)
  | recase {names others : List String} (h : List.Forall₂ Recased names others) :
      Reworded names others
  | trans {names others rest : List String} (h : Reworded names others)
      (h' : Reworded others rest) : Reworded names rest

/-- The names of a list without regard to case, order and repetitions. -/
def folded (names : List String) : Finset String := (names.map fold).toFinset

theorem mem_folded {name : String} {names : List String} :
    name ∈ folded names ↔ ∃ other ∈ names, fold other = name := by
  simp [folded]

theorem folded_subset_iff {a b : List String} :
    folded a ⊆ folded b ↔ ∀ name ∈ a, fold name ∈ folded b := by
  simp [Finset.subset_iff, mem_folded]

theorem sameSet_iff {a b : List String} : sameSet a b ↔ folded a = folded b := by
  simp only [sameSet, Bool.and_eq_true, List.all_eq_true, isIn_iff, ← mem_folded,
    ← folded_subset_iff]
  exact Finset.Subset.antisymm_iff.symm

/-- Only the capitals of ASCII change, each to the letter 32 places on. -/
theorem toNat_toLower (c : Char) : c.toLower.toNat =
    if 65 ≤ c.toNat ∧ c.toNat ≤ 90 then c.toNat + 32 else c.toNat := by
  have hcapital : ('A'.val ≤ c.val ∧ c.val ≤ 'Z'.val) ↔ 65 ≤ c.toNat ∧ c.toNat ≤ 90 :=
    and_congr UInt32.le_iff_toNat_le UInt32.le_iff_toNat_le
  unfold Char.toLower
  split
  next h =>
    have hrange := hcapital.mp h
    have hshift : ('a'.val - 'A'.val).toNat = 32 := by decide
    rw [if_pos hrange, ← Char.toNat_val, UInt32.toNat_add, hshift, Char.toNat_val]
    omega
  next h => rw [if_neg (mt hcapital.mpr h)]

/-- Only the small letters of ASCII change, each to the letter 32 places back. -/
theorem toNat_toUpper (c : Char) : c.toUpper.toNat =
    if 97 ≤ c.toNat ∧ c.toNat ≤ 122 then c.toNat - 32 else c.toNat := by
  have hsmall : ('a'.val ≤ c.val ∧ c.val ≤ 'z'.val) ↔ 97 ≤ c.toNat ∧ c.toNat ≤ 122 :=
    and_congr UInt32.le_iff_toNat_le UInt32.le_iff_toNat_le
  unfold Char.toUpper
  split
  next h =>
    have hrange := hsmall.mp h
    -- the shift goes back, and wraps
    have hshift : ('A'.val - 'a'.val).toNat = 2 ^ 32 - 32 := by decide
    rw [if_pos hrange, ← Char.toNat_val, UInt32.toNat_add, hshift, Char.toNat_val]
    omega
  next h => rw [if_neg (mt hsmall.mpr h)]

theorem toLower_eq_of_recased {c d : Char} (h : d = c ∨ d = c.toLower ∨ d = c.toUpper) :
    c.toLower = d.toLower := by
  rw [← Char.toNat_inj]
  rcases h with rfl | rfl | rfl
  · rfl
  · simp only [toNat_toLower]
    split_ifs <;> omega
  · simp only [toNat_toLower, toNat_toUpper]
    split_ifs <;> omega

theorem fold_eq_of_recased {a b : String} (h : Recased a b) : fold a = fold b := by
  have hchars : List.Forall₂ (fun c d => c.toLower = d.toLower) a.toList b.toList :=
    h.imp fun _ _ => toLower_eq_of_recased
  rw [fold, fold, map_eq_of_forall₂ hchars]

theorem folded_eq_of_reworded {names others : List String} (h : Reworded names others) :
    folded names = folded others := by
  induction h with
  | reorder h => exact List.toFinset_eq_of_perm _ _ (h.map fold)
  | again h =>
    rw [folded, folded, List.map_cons, List.toFinset_cons, eq_comm, Finset.insert_eq_self]
    exact List.mem_toFinset.mpr (List.mem_map_of_mem h)
  | recase h =>
    rw [folded, folded, map_eq_of_forall₂ (h.imp fun _ _ => fold_eq_of_recased)]
  | trans _ _ ih ih' => exact ih.trans ih'

end Name

theorem agreeOption_same_iff {a b : Option String} :
    agreeOption Name.same a b ↔ a.map Name.fold = b.map Name.fold :=
  agreeOption_iff fun a b => Name.same_iff (a := a) (b := b)

theorem agreeOption_sameTrimmed_iff {a b : Option String} :
    agreeOption Text.sameTrimmed a b ↔ a.map Text.trim = b.map Text.trim :=
  agreeOption_iff fun a b => Text.sameTrimmed_iff (a := a) (b := b)

/-- Lists of at most one element, which tells what it was made from. -/
theorem toList_map_eq_iff {α β κ : Type} {key : α → κ} {f : κ → β} (hf : Function.Injective f)
    {a b : Option α} :
    (a.map fun x => f (key x)).toList = (b.map fun x => f (key x)).toList ↔
      a.map key = b.map key := by
  cases a <;> cases b <;> simp [hf.eq_iff]

theorem find?_filter_self {α : Type} {p : α → Bool} {l : List α} :
    (l.filter p).find? p = l.find? p := by
  simp [List.find?_filter]

/-! ## Comparison by meaning -/

/-- Comparison for a dialect asks whether both declarations say anything to the dialect, and
mean the same there. -/
structure ComparesBy {α σ : Type} [Comparable α] (speaks : Dialect → α → Prop)
    (meaning : Dialect → α → σ) : Prop where
  equalFor_iff : ∀ {dialect : Dialect} {a b : α}, equalFor dialect a b ↔
    speaks dialect a ∧ speaks dialect b ∧ meaning dialect a = meaning dialect b

/-- The laws that the comparison of a kind obeys, where `speaks` tells which declarations say
anything to a dialect. -/
structure LawfulComparison (α : Type) [Identity α] [Comparable α]
    (speaks : Dialect → α → Prop) : Prop where
  symm : ∀ (dialect : Dialect) (a b : α), equalFor dialect a b = equalFor dialect b a
  trans : ∀ (dialect : Dialect) (a b c : α),
    equalFor dialect a b → equalFor dialect b c → equalFor dialect a c
  sameAs : ∀ (dialect : Dialect) (a b : α), equalFor dialect a b → Identity.sameAs a b
  /-- The declarations that are equal to themselves. -/
  self_iff : ∀ (dialect : Dialect) (a : α), equalFor dialect a a ↔ speaks dialect a

/-- Comparison for a dialect does not see what `onlyFor` takes away, on either side. -/
def SeesOnly {α : Type} [Comparable α] (onlyFor : Dialect → α → α) : Prop :=
  ∀ (dialect : Dialect) (a b : α),
    equalFor dialect (onlyFor dialect a) b = equalFor dialect a b ∧
      equalFor dialect a (onlyFor dialect b) = equalFor dialect a b

namespace ComparesBy

variable {α σ : Type} [Comparable α] {speaks : Dialect → α → Prop} {meaning : Dialect → α → σ}

theorem lawful [Identity α] (h : ComparesBy speaks meaning)
    (hsame : ∀ {dialect : Dialect} {a b : α}, equalFor dialect a b → Identity.sameAs a b) :
    LawfulComparison α speaks where
  symm dialect a b := by
    rw [Bool.eq_iff_iff, h.equalFor_iff, h.equalFor_iff]
    constructor
    · intro hab
      exact ⟨hab.2.1, hab.1, hab.2.2.symm⟩
    · intro hba
      exact ⟨hba.2.1, hba.1, hba.2.2.symm⟩
  trans dialect a b c hab hbc := by
    obtain ⟨ha, -, hab⟩ := h.equalFor_iff.mp hab
    obtain ⟨-, hc, hbc⟩ := h.equalFor_iff.mp hbc
    exact h.equalFor_iff.mpr ⟨ha, hc, hab.trans hbc⟩
  sameAs dialect a b hab := hsame hab
  self_iff dialect a := by
    rw [h.equalFor_iff]
    simp only [and_true, and_self]

/-- What changes neither whether a declaration speaks nor what it means is not seen. -/
theorem seesOnly (h : ComparesBy speaks meaning) {onlyFor : Dialect → α → α}
    (hspeaks : ∀ dialect a, speaks dialect (onlyFor dialect a) ↔ speaks dialect a)
    (hmeaning : ∀ dialect a, meaning dialect (onlyFor dialect a) = meaning dialect a) :
    SeesOnly onlyFor := by
  intro dialect a b
  constructor <;>
    rw [Bool.eq_iff_iff, h.equalFor_iff, h.equalFor_iff, hspeaks, hmeaning]

/-- A kind that says something to every dialect. -/
theorem of_canonical {canonical : Dialect → α → σ}
    (h : ∀ {dialect : Dialect} {a b : α},
      equalFor dialect a b ↔ canonical dialect a = canonical dialect b) :
    ComparesBy (fun _ _ => True) canonical where
  equalFor_iff := by simp [h]

end ComparesBy

/-- A kind known by its names that says something to every dialect obeys the laws, if its
canonical form bears the folded name. -/
theorem LawfulComparison.of_canonical {α : Type} [Named α] [Comparable α]
    {canonical : Dialect → α → α}
    (hname : ∀ dialect a, Named.name (canonical dialect a) = Name.fold (Named.name a))
    (h : ∀ {dialect : Dialect} {a b : α},
      equalFor dialect a b ↔ canonical dialect a = canonical dialect b) :
    LawfulComparison α fun _ _ => True :=
  (ComparesBy.of_canonical h).lawful fun {dialect a b} hab => by
    rw [sameAs_iff_name, ← hname dialect, ← hname dialect, h.mp hab]

/-! ## Kinds that say something to every dialect -/

namespace Column

/-- The column as comparison reads it. -/
def canonical (c : Column) : Column :=
  { c with
    name := Name.fold c.name
    type := c.type.map Name.fold
    foreignSchema := Name.fold c.foreignSchema
    foreignTable := Name.fold c.foreignTable
    foreignColumn := Name.fold c.foreignColumn
    foreignKeyName := Name.fold c.foreignKeyName
    hooks := {} }

theorem equalFor_iff {dialect : Dialect} {a b : Column} :
    equalFor dialect a b ↔ a.canonical = b.canonical := by
  simp only [equalFor, canonical, Bool.and_eq_true, beq_iff_eq, sameAs_iff_name, Named.name,
    Name.same_iff, agreeOption_same_iff, mk.injEq, and_assoc, and_true]

theorem lawfulComparison : LawfulComparison Column fun _ _ => True :=
  .of_canonical (fun _ _ => rfl) equalFor_iff

end Column

namespace ForeignKey

/-- The foreign key as comparison reads it. -/
def canonical (fk : ForeignKey) : ForeignKey :=
  { fk with
    columns := fk.columns.map Name.fold
    foreignSchema := Name.fold fk.foreignSchema
    foreignTable := Name.fold fk.foreignTable
    foreignColumns := fk.foreignColumns.map Name.fold
    name := Name.fold fk.name
    indexName := Name.fold fk.indexName }

theorem equalFor_iff {dialect : Dialect} {a b : ForeignKey} :
    equalFor dialect a b ↔ a.canonical = b.canonical := by
  simp only [equalFor, canonical, Bool.and_eq_true, beq_iff_eq, sameAs_iff_name, Named.name,
    Name.same_iff, Name.sameList_iff, mk.injEq]
  -- the same facts, in the order of the fields
  exact iff_of_eq (by ac_rfl)

theorem lawfulComparison : LawfulComparison ForeignKey fun _ _ => True :=
  .of_canonical (fun _ _ => rfl) equalFor_iff

end ForeignKey

namespace Index

/-- The dimension as comparison reads it. -/
def Dimension.canonical (d : Dimension) : Dimension :=
  { isExpression := d.isExpression
    value := if d.isExpression then Text.trim d.value else Name.fold d.value }

/-- The index with the conditions for one dialect alone. -/
def onlyFor (dialect : Dialect) (i : Index) : Index :=
  { i with conditions := i.conditions.filter fun condition => condition.dialect == dialect }

/-- The index as comparison for a dialect reads it. -/
def canonical (dialect : Dialect) (i : Index) : Index :=
  { i with
    name := Name.fold i.name
    dimensions := i.dimensions.map Dimension.canonical
    conditions := ((i.conditionFor dialect).map fun text => ⟨dialect, Text.trim text⟩).toList }

theorem Dimension.same_iff {a b : Dimension} : a.same b ↔ a.canonical = b.canonical := by
  by_cases h : a.isExpression = b.isExpression
  · by_cases hb : b.isExpression <;>
      simp [same, canonical, h, hb, Text.sameTrimmed_iff, Name.same_iff]
  · simp [same, canonical, h]

theorem agreeList_same_iff {as bs : List Dimension} :
    agreeList Dimension.same as bs ↔
      as.map Dimension.canonical = bs.map Dimension.canonical :=
  agreeList_iff fun a b => Dimension.same_iff (a := a) (b := b)

theorem equalFor_iff {dialect : Dialect} {a b : Index} :
    equalFor dialect a b ↔ a.canonical dialect = b.canonical dialect := by
  have hconditions : (a.canonical dialect).conditions = (b.canonical dialect).conditions ↔
      (a.conditionFor dialect).map Text.trim = (b.conditionFor dialect).map Text.trim :=
    toList_map_eq_iff fun _ _ h => congrArg Condition.text h
  simp only [equalFor, Bool.and_eq_true, beq_iff_eq, sameAs_iff_name, Named.name,
    agreeList_same_iff, agreeOption_sameTrimmed_iff, ← hconditions]
  simp only [canonical, mk.injEq, and_assoc]

theorem lawfulComparison : LawfulComparison Index fun _ _ => True :=
  .of_canonical (fun _ _ => rfl) equalFor_iff

theorem seesOnly : SeesOnly onlyFor :=
  (ComparesBy.of_canonical equalFor_iff).seesOnly (fun _ _ => Iff.rfl) fun dialect i => by
    simp only [canonical, onlyFor, conditionFor, find?_filter_self]

end Index

namespace Constraint

/-- The constraint as comparison reads it. -/
def canonical (c : Constraint) : Constraint :=
  { c with
    name := Name.fold c.name
    definition := Text.trim c.definition
    foreignIndexName := Name.fold c.foreignIndexName
    foreignSchema := Name.fold c.foreignSchema
    foreignTable := Name.fold c.foreignTable }

theorem equalFor_iff {dialect : Dialect} {a b : Constraint} :
    equalFor dialect a b ↔ a.canonical = b.canonical := by
  simp only [equalFor, canonical, Bool.and_eq_true, beq_iff_eq, sameAs_iff_name, Named.name,
    Name.same_iff, Text.sameTrimmed_iff, mk.injEq, and_assoc]

theorem lawfulComparison : LawfulComparison Constraint fun _ _ => True :=
  .of_canonical (fun _ _ => rfl) equalFor_iff

end Constraint

namespace Sequence

/-- The sequence as comparison reads it. -/
def canonical (s : Sequence) : Sequence :=
  { s with
    name := Name.fold s.name
    owner := Name.fold s.owner
    description := ""
    ownedBy := Name.fold s.ownedBy
    grants := [] }

theorem equalFor_iff {dialect : Dialect} {a b : Sequence} :
    equalFor dialect a b ↔ a.canonical = b.canonical := by
  simp only [equalFor, canonical, Bool.and_eq_true, beq_iff_eq, sameAs_iff_name, Named.name,
    Name.same_iff, mk.injEq, and_assoc, true_and, and_true]

theorem lawfulComparison : LawfulComparison Sequence fun _ _ => True :=
  .of_canonical (fun _ _ => rfl) equalFor_iff

end Sequence

namespace View

/-- The view with the queries for one dialect alone. -/
def onlyFor (dialect : Dialect) (v : View) : View :=
  { v with queries := v.queries.filter fun query => query.dialect == dialect }

/-- The view as comparison for a dialect reads it. -/
def canonical (dialect : Dialect) (v : View) : View :=
  { name := Name.fold v.name
    owner := Name.fold v.owner
    queries := ((v.queryFor dialect).map fun text => ⟨dialect, Text.trim text⟩).toList }

theorem equalFor_iff {dialect : Dialect} {a b : View} :
    equalFor dialect a b ↔ a.canonical dialect = b.canonical dialect := by
  have hqueries : (a.canonical dialect).queries = (b.canonical dialect).queries ↔
      (a.queryFor dialect).map Text.trim = (b.queryFor dialect).map Text.trim :=
    toList_map_eq_iff fun _ _ h => congrArg Query.text h
  simp only [equalFor, Bool.and_eq_true, sameAs_iff_name, Named.name, Name.same_iff,
    agreeOption_sameTrimmed_iff, ← hqueries]
  simp only [canonical, mk.injEq, and_assoc, true_and, and_true]

theorem lawfulComparison : LawfulComparison View fun _ _ => True :=
  .of_canonical (fun _ _ => rfl) equalFor_iff

theorem seesOnly : SeesOnly onlyFor :=
  (ComparesBy.of_canonical equalFor_iff).seesOnly (fun _ _ => Iff.rfl) fun dialect v => by
    simp only [canonical, onlyFor, queryFor, find?_filter_self]

end View

namespace UserType

/-- The field as comparison reads it. -/
def Field.canonical (f : Field) : Field :=
  { name := Name.fold f.name, type := Name.fold f.type }

theorem Field.same_iff {a b : Field} : a.same b ↔ a.canonical = b.canonical := by
  simp [same, canonical, Name.same_iff]

theorem agreeList_same_iff {as bs : List Field} :
    agreeList Field.same as bs ↔ as.map Field.canonical = bs.map Field.canonical :=
  agreeList_iff fun a b => Field.same_iff (a := a) (b := b)

/-- The type as comparison reads it: the payload of other kinds is left out. -/
def canonical (t : UserType) : UserType :=
  match t.kind with
  | .enumeration => ofLabels (Name.fold t.name) t.labels
  | .composite => ofFields (Name.fold t.name) (t.fields.map Field.canonical)
  | .domain =>
    { name := Name.fold t.name, kind := .domain, base := t.base, checks := t.checks }

theorem equalFor_iff {dialect : Dialect} {a b : UserType} :
    equalFor dialect a b ↔ a.canonical = b.canonical := by
  simp only [equalFor, Bool.and_eq_true, beq_iff_eq, sameAs_iff_name, Named.name]
  cases ha : a.kind <;> cases hb : b.kind <;>
    simp [canonical, ha, hb, ofLabels, ofFields, agreeList_same_iff]

theorem name_canonical (t : UserType) : t.canonical.name = Name.fold t.name := by
  unfold canonical
  split <;> rfl

theorem lawfulComparison : LawfulComparison UserType fun _ _ => True :=
  .of_canonical (fun _ => name_canonical) equalFor_iff

end UserType

/-! ## Kinds that may say nothing to a dialect -/

namespace StorageOption

/-- The option as comparison reads it. -/
def canonical (o : StorageOption) : StorageOption := { o with name := Name.fold o.name }

theorem sameAs_iff {a b : StorageOption} :
    Identity.sameAs a b ↔ a.dialect = b.dialect ∧ Name.fold a.name = Name.fold b.name := by
  simp only [sameAs_iff_key, Keyed.key, Option.some.injEq, exists_eq_right', Prod.mk.injEq]

theorem comparesBy :
    ComparesBy (fun dialect o => o.dialect = dialect) fun _ o => canonical o where
  equalFor_iff {dialect a b} := by
    simp only [equalFor, canonical, Bool.and_eq_true, beq_iff_eq, sameAs_iff, mk.injEq]
    constructor
    · intro h
      obtain ⟨⟨ha, hdialect, hname⟩, hvalue⟩ := h
      exact ⟨ha, hdialect ▸ ha, hdialect, hname, hvalue⟩
    · intro h
      obtain ⟨ha, -, hdialect, hname, hvalue⟩ := h
      exact ⟨⟨ha, hdialect, hname⟩, hvalue⟩

theorem lawfulComparison :
    LawfulComparison StorageOption fun dialect o => o.dialect = dialect :=
  comparesBy.lawful fun {dialect a b} hab => by
    obtain ⟨-, -, hmeaning⟩ := comparesBy.equalFor_iff.mp hab
    rw [sameAs_iff]
    show a.canonical.dialect = b.canonical.dialect ∧ a.canonical.name = b.canonical.name
    rw [hmeaning]
    exact ⟨rfl, rfl⟩

end StorageOption

namespace Trigger

/-- The trigger as comparison for a dialect that it is meant for reads it. -/
def canonical (t : Trigger) : Trigger × Finset String :=
  ({ t with
      name := Name.fold t.name
      table := Name.fold t.table
      events := []
      routine := Name.fold t.routine
      dialect := none },
    Name.folded t.events)

theorem appliesTo_iff {t : Trigger} {dialect : Dialect} :
    t.appliesTo dialect ↔ t.dialect = none ∨ t.dialect = some dialect := by
  unfold appliesTo
  cases t.dialect <;> simp

theorem sameAs_iff {a b : Trigger} :
    Identity.sameAs a b ↔
      Name.fold a.name = Name.fold b.name ∧ Name.fold a.table = Name.fold b.table := by
  simp only [sameAs_iff_key, Keyed.key, Option.some.injEq, exists_eq_right', Prod.mk.injEq]

theorem comparesBy :
    ComparesBy (fun dialect t => t.dialect = none ∨ t.dialect = some dialect)
      fun _ t => canonical t where
  equalFor_iff {dialect a b} := by
    simp only [equalFor, canonical, ← appliesTo_iff, Bool.and_eq_true, beq_iff_eq, sameAs_iff,
      Name.sameSet_iff, Name.same_iff, Prod.mk.injEq, mk.injEq]
    exact iff_of_eq (by ac_rfl)

theorem lawfulComparison :
    LawfulComparison Trigger fun dialect t => t.dialect = none ∨ t.dialect = some dialect :=
  comparesBy.lawful fun {dialect a b} hab => by
    obtain ⟨-, -, hmeaning⟩ := comparesBy.equalFor_iff.mp hab
    rw [sameAs_iff]
    show a.canonical.1.name = b.canonical.1.name ∧ a.canonical.1.table = b.canonical.1.table
    rw [hmeaning]
    exact ⟨rfl, rfl⟩

end Trigger

namespace Routine

namespace Body

/-- The body as comparison reads it. -/
def canonical (body : Body) : Body :=
  { body with language := Name.fold body.language, text := Text.trim body.text }

theorem comparesBy :
    ComparesBy (fun dialect body => body.dialect = some dialect)
      fun _ body => canonical body where
  equalFor_iff {dialect a b} := by
    simp only [equalFor, canonical, Bool.and_eq_true, beq_iff_eq, sameAs_iff_key, Keyed.key,
      Name.same_iff, Text.sameTrimmed_iff, mk.injEq]
    constructor
    · intro h
      obtain ⟨⟨⟨ha, k, hak, hbk⟩, hlanguage⟩, htext⟩ := h
      have hdialect : a.dialect = b.dialect := hak.trans hbk.symm
      exact ⟨ha, hdialect ▸ ha, hdialect, hlanguage, htext⟩
    · intro h
      obtain ⟨ha, hb, -, hlanguage, htext⟩ := h
      exact ⟨⟨⟨ha, dialect, ha, hb⟩, hlanguage⟩, htext⟩

theorem lawfulComparison :
    LawfulComparison Body fun dialect body => body.dialect = some dialect :=
  comparesBy.lawful fun {dialect a b} hab => by
    obtain ⟨ha, hb, -⟩ := comparesBy.equalFor_iff.mp hab
    exact sameAs_iff_key.mpr ⟨dialect, ha, hb⟩

end Body

/-- The routine with the bodies for one dialect alone. -/
def onlyFor (dialect : Dialect) (r : Routine) : Routine :=
  { r with bodies := r.bodies.filter fun body => body.dialect == some dialect }

/-- The routine as comparison for a dialect reads it, but for its signature. -/
def canonical (dialect : Dialect) (r : Routine) : Routine :=
  { name := ""
    owner := Name.fold r.owner
    returns := Name.fold r.returns
    cachePolicy := Name.fold r.cachePolicy
    securityDefiner := r.securityDefiner
    bodies := ((r.bodyFor dialect).map Body.canonical).toList }

theorem bodyFor_onlyFor {dialect : Dialect} {r : Routine} :
    (r.onlyFor dialect).bodyFor dialect = r.bodyFor dialect :=
  find?_filter_self

theorem dialect_of_bodyFor {r : Routine} {dialect : Dialect} {body : Body}
    (h : r.bodyFor dialect = some body) : body.dialect = some dialect := by
  simpa using List.find?_some h

/-- Bodies are compared as the one body that each routine has for the dialect. -/
theorem bothPresent_bodyFor_iff {dialect : Dialect} {a b : Routine} :
    bothPresent (equalFor dialect) (a.bodyFor dialect) (b.bodyFor dialect) ↔
      a.Speaks dialect ∧ b.Speaks dialect ∧
        (a.canonical dialect).bodies = (b.canonical dialect).bodies := by
  rw [← isSome_bodyFor_iff, ← isSome_bodyFor_iff]
  cases ha : a.bodyFor dialect with
  | none => simp [bothPresent]
  | some body =>
    cases hb : b.bodyFor dialect with
    | none => simp [bothPresent]
    | some other =>
      simp [bothPresent, canonical, ha, hb, Body.comparesBy.equalFor_iff,
        dialect_of_bodyFor ha, dialect_of_bodyFor hb]

theorem equalFor_eq {dialect : Dialect} {a b : Routine} :
    equalFor dialect a b =
      (bothPresent (equalFor dialect) (a.bodyFor dialect) (b.bodyFor dialect) &&
        a.sameSignature b && Name.same a.owner b.owner && Name.same a.returns b.returns &&
        Name.same a.cachePolicy b.cachePolicy && a.securityDefiner == b.securityDefiner) :=
  rfl

theorem comparesBy :
    ComparesBy (fun dialect r => Speaks r dialect)
      fun dialect r => (signatureKey r, canonical dialect r) where
  equalFor_iff {dialect a b} := by
    rw [equalFor_eq]
    simp only [Bool.and_eq_true, beq_iff_eq, bothPresent_bodyFor_iff, sameSignature_iff,
      Name.same_iff, Prod.mk.injEq]
    simp only [canonical, mk.injEq]
    exact iff_of_eq (by ac_rfl)

theorem lawfulComparison : LawfulComparison Routine fun dialect r => r.Speaks dialect :=
  comparesBy.lawful fun {dialect a b} hab => by
    obtain ⟨ha, hb, hmeaning⟩ := comparesBy.equalFor_iff.mp hab
    exact sameAs_routine_iff.mpr ⟨congrArg Prod.fst hmeaning, dialect, ha, hb⟩

theorem seesOnly : SeesOnly onlyFor := by
  refine comparesBy.seesOnly (fun dialect r => ?_) (fun dialect r => ?_)
  · rw [← isSome_bodyFor_iff, ← isSome_bodyFor_iff, bodyFor_onlyFor]
  · rw [canonical, bodyFor_onlyFor]
    rfl

end Routine

/-! ## Grants -/

namespace Grant

/-- The grant as comparison reads it: whether it may be passed on, its roles and its
permissions. -/
def canonical (g : Grant) : Bool × Finset String × Finset String :=
  (g.withGrantOption, Name.folded g.roles, Name.folded g.permissions)

/-- The second grant gives the same in other words: roles and permissions in another order,
repeated, or in another case. -/
structure Reworded (g h : Grant) : Prop where
  withGrantOption : g.withGrantOption = h.withGrantOption
  roles : Name.Reworded g.roles h.roles
  permissions : Name.Reworded g.permissions h.permissions

theorem equivalent_iff {a b : Grant} : a.equivalent b ↔ a.canonical = b.canonical := by
  simp [equivalent, canonical, Name.sameSet_iff, and_assoc]

theorem equivalent_equivalence : Equivalence fun a b : Grant => a.equivalent b = true := by
  simp only [equivalent_iff]
  exact eq_equivalence.comap canonical

theorem canonical_eq_of_reworded {g h : Grant} (hgh : g.Reworded h) :
    g.canonical = h.canonical := by
  rw [canonical, canonical, hgh.withGrantOption, Name.folded_eq_of_reworded hgh.roles,
    Name.folded_eq_of_reworded hgh.permissions]

/-- Neither side of a comparison feels a change of words. -/
theorem equivalent_reworded {g h other : Grant} (hgh : g.Reworded h) :
    h.equivalent other = g.equivalent other ∧ other.equivalent h = other.equivalent g := by
  constructor <;>
    rw [Bool.eq_iff_iff, equivalent_iff, equivalent_iff, canonical_eq_of_reworded hgh]

end Grant

/-! ## The laws, kind by kind -/

/-- Comparison for a dialect is symmetric and transitive for every kind, finds equal only what
is the same, and finds every declaration equal to itself but those that say nothing to the
dialect. It does not see conditions, queries and bodies for other dialects. Equivalence of
grants is an equivalence, and does not see order, repetitions and case. -/
theorem comparison_lawful :
    (LawfulComparison StorageOption (fun dialect o => o.dialect = dialect) ∧
      LawfulComparison Column (fun _ _ => True) ∧
      LawfulComparison ForeignKey (fun _ _ => True) ∧
      LawfulComparison Index (fun _ _ => True) ∧
      LawfulComparison Constraint (fun _ _ => True) ∧
      LawfulComparison Sequence (fun _ _ => True) ∧
      LawfulComparison Routine.Body (fun dialect body => body.dialect = some dialect) ∧
      LawfulComparison Routine
        (fun dialect r => ∃ body ∈ r.bodies, body.dialect = some dialect) ∧
      LawfulComparison Trigger
        (fun dialect t => t.dialect = none ∨ t.dialect = some dialect) ∧
      LawfulComparison View (fun _ _ => True) ∧
      LawfulComparison UserType (fun _ _ => True)) ∧
    (SeesOnly Index.onlyFor ∧ SeesOnly Routine.onlyFor ∧ SeesOnly View.onlyFor) ∧
    (Equivalence (fun a b : Grant => a.equivalent b = true) ∧
      ∀ g h other : Grant, g.Reworded h →
        h.equivalent other = g.equivalent other ∧ other.equivalent h = other.equivalent g) :=
  ⟨⟨StorageOption.lawfulComparison, Column.lawfulComparison, ForeignKey.lawfulComparison,
      Index.lawfulComparison, Constraint.lawfulComparison, Sequence.lawfulComparison,
      Routine.Body.lawfulComparison, Routine.lawfulComparison, Trigger.lawfulComparison,
      View.lawfulComparison, UserType.lawfulComparison⟩,
    ⟨Index.seesOnly, Routine.seesOnly, View.seesOnly⟩,
    Grant.equivalent_equivalence, fun _ _ _ hgh => Grant.equivalent_reworded hgh⟩

/-- A grant written out again, in capitals and with one role twice. -/
theorem comparison_lawful_grant :
    (Grant.ofPermissions ["app", "ops"] ["select"]).Reworded
        (Grant.ofPermissions ["OPS", "ops", "app"] ["SELECT"]) ∧
      (Grant.ofPermissions ["OPS", "ops", "app"] ["SELECT"]).equivalent
        (Grant.ofPermissions ["app", "ops"] ["select"]) = true := by
  have hroles : Name.Reworded ["app", "ops"] ["OPS", "ops", "app"] := by
    refine .trans (.reorder (.swap "ops" "app" [])) (.trans (.again (List.mem_cons_self ..)) ?_)
    exact .recase (by simp [Name.Recased])
  have hpermissions : Name.Reworded ["select"] ["SELECT"] := .recase (by simp [Name.Recased])
  have hreworded : (Grant.ofPermissions ["app", "ops"] ["select"]).Reworded
      (Grant.ofPermissions ["OPS", "ops", "app"] ["SELECT"]) := ⟨rfl, hroles, hpermissions⟩
  obtain ⟨-, -, hequivalence, hwords⟩ := comparison_lawful
  exact ⟨hreworded, (hwords _ _ _ hreworded).1.trans (hequivalence.refl _)⟩

end LayeredSchema
