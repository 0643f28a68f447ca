import LayeredSchema.Proofs.Reference.Inheritance

/-!
# The search along the ancestors

A table may name a parent, which is looked up as seen from the schema of the table, the
parent another one, and so on: `ancestorAt?` is the chain of tables that this makes, whatever
column is asked for. The search for a column goes along that chain and ends at its first
table that declares the column, so that it never learns what is wrong with the chain farther
on. Where no table declares the column, it ends with the chain: at a table without a parent,
at one whose parent cannot be found, or at the first table that is met again.

`SearchEnds` says where a search ends and with what answer, in terms of the chain alone, and
`inheritedColumn?_eq_iff_searchEnds` that this is what the search answers, after no more
steps than there are tables.
-/

namespace LayeredSchema

variable {d : Definition}

namespace TableSlot

/-! ## What a table declares -/

/-- Some column of the table itself bears the name. -/
def HasColumn (t : TableSlot d) (name : String) : Prop :=
  ∃ c ∈ t.table.columns, Name.same c.name name

instance (t : TableSlot d) (name : String) : Decidable (t.HasColumn name) :=
  inferInstanceAs (Decidable (∃ c ∈ t.table.columns, Name.same c.name name))

/-- The column is the first of the table's own that bears the name. -/
structure FirstNamed (t : TableSlot d) (name : String) (c : ColumnSlot d) : Prop where
  owner : c.owner = t
  named : Name.same c.column.name name
  first : ∀ b : ColumnSlot d, b.owner = t → Name.same b.column.name name →
    c.columnAt.val ≤ b.columnAt.val

theorem column?_eq_none_iff {t : TableSlot d} {name : String} :
    t.column? name = none ↔ ¬ t.HasColumn name := by
  unfold column? Siblings.position? HasColumn
  rw [Option.map_eq_none_iff, List.findFinIdx?_eq_none_iff]
  push Not
  rfl

theorem column?_eq_some_iff_firstNamed {t : TableSlot d} {name : String} {c : ColumnSlot d} :
    t.column? name = some c ↔ t.FirstNamed name c := by
  unfold column? Siblings.position?
  rw [Option.map_eq_some_iff]
  constructor
  · intro h
    obtain ⟨i, hi, rfl⟩ := h
    obtain ⟨hname, hfirst⟩ := List.findFinIdx?_eq_some_iff.mp hi
    refine ⟨rfl, hname, ?_⟩
    rintro ⟨u, j⟩ hu hj
    obtain rfl : u = t := hu
    by_contra hlt
    exact hfirst j (Nat.lt_of_not_le hlt) hj
  · intro h
    obtain ⟨u, i⟩ := c
    obtain ⟨hu, hname, hfirst⟩ := h
    obtain rfl : u = t := hu
    refine ⟨i, List.findFinIdx?_eq_some_iff.mpr ⟨hname, ?_⟩, rfl⟩
    intro j hj hjname
    have hle : i.val ≤ j.val := hfirst ⟨u, j⟩ rfl hjname
    exact absurd hj (Nat.not_lt_of_le hle)

/-! ## The chain of parents -/

/-- The schema that the parent is looked up in: the one that the table names for it or, if it
names none, the table's own. -/
def parentHome? (t : TableSlot d) : Option (Fin d.schemas.length) :=
  d.schemaFrom? t.schemaAt t.table.parentSchema

/-- The parent of a table, if it names one that can be found. -/
def parent? (t : TableSlot d) : Option (TableSlot d) :=
  if t.table.parentTable = "" then none
  else t.parentHome?.bind fun home => d.tableIn? home t.table.parentTable

/-- Why a parent that a table names is not there: no schema bears the name that it gives for
the schema, or no table of that schema the one that it gives for the table. -/
inductive Orphaned (t : TableSlot d) : ResolveError → Prop
  | noSchema (hparent : t.table.parentTable ≠ "") (hschema : t.table.parentSchema ≠ "")
      (hnone : ∀ s ∈ d.schemas, ¬ Name.same s.name t.table.parentSchema) :
      Orphaned t (.unknownSchema t.qualifiedName t.table.parentSchema)
  | noTable {home : Fin d.schemas.length} (hparent : t.table.parentTable ≠ "")
      (hhome : t.parentHome? = some home)
      (hnone : ∀ u ∈ (d.schemas.get home).tables, ¬ Name.same u.name t.table.parentTable) :
      Orphaned t (.unknownTable t.qualifiedName (d.schemas.get home).name t.table.parentTable)

theorem hasParent_iff {t : TableSlot d} : t.table.hasParent ↔ t.table.parentTable ≠ "" := by
  simp [Table.hasParent]

theorem parent?_eq_some_iff {t u : TableSlot d} :
    t.parent? = some u ↔ t.table.hasParent ∧ t.parent = .ok u := by
  rw [hasParent_iff, parent, Definition.findTable_eq_ok_iff, parent?]
  by_cases hparent : t.table.parentTable = ""
  · simp [hparent]
  · simp [hparent, parentHome?, Option.bind_eq_some_iff]

/-- A table whose parent does not resolve is an orphan, and the error says why. -/
theorem orphaned_iff {t : TableSlot d} {e : ResolveError} :
    t.Orphaned e ↔ t.table.hasParent ∧ t.parent = .error e := by
  rw [hasParent_iff, parent, Definition.findTable_eq_error_iff]
  constructor
  · intro h
    cases h with
    | noSchema hparent hschema hnone =>
      exact ⟨hparent, .inl ⟨Definition.schemaFrom?_eq_none_iff.mpr ⟨hschema, hnone⟩, rfl⟩⟩
    | noTable hparent hhome hnone =>
      exact ⟨hparent, .inr ⟨_, hhome, Definition.tableIn?_eq_none_iff.mpr hnone, rfl⟩⟩
  · intro h
    rcases h with ⟨hparent, ⟨hhome, rfl⟩ | ⟨home, hhome, htable, rfl⟩⟩
    · obtain ⟨hschema, hnone⟩ := Definition.schemaFrom?_eq_none_iff.mp hhome
      exact .noSchema hparent hschema hnone
    · exact .noTable hparent hhome (Definition.tableIn?_eq_none_iff.mp htable)

/-- The table that is reached by going so many parents up. -/
def ancestorAt? (t : TableSlot d) (n : Nat) : Option (TableSlot d) := linkAt? parent? t n

/-- No table fewer parents up than this has a column of the name. -/
def UndeclaredBefore (t : TableSlot d) (name : String) (n : Nat) : Prop :=
  ∀ m < n, ∀ u, t.ancestorAt? m = some u → ¬ u.HasColumn name

/-! ## The search -/

/-- Where the search for a column ends on the chain of parents, and with what answer. -/
inductive SearchEnds (t : TableSlot d) (name : String) (n : Nat) :
    Except ResolveError (Option (ColumnSlot d)) → Prop
  /-- The first table that declares the column answers with its first one of that name, -/
  | declared {u : TableSlot d} {c : ColumnSlot d} (hu : t.ancestorAt? n = some u)
      (hbefore : t.UndeclaredBefore name n) (hc : u.FirstNamed name c) :
      SearchEnds t name n (.ok (some c))
  /-- and without one a table that names no parent ends the search, -/
  | rooted {u : TableSlot d} (hu : t.ancestorAt? n = some u)
      (hbefore : t.UndeclaredBefore name (n + 1)) (hroot : u.table.parentTable = "") :
      SearchEnds t name n (.ok none)
  /-- or one whose parent cannot be found, -/
  | orphaned {u : TableSlot d} {e : ResolveError} (hu : t.ancestorAt? n = some u)
      (hbefore : t.UndeclaredBefore name (n + 1)) (horphan : u.Orphaned e) :
      SearchEnds t name n (.error e)
  /-- or the first table that the chain comes back to. -/
  | revisited {u : TableSlot d} (hu : MetAgainAt parent? t n u)
      (hfirst : ∀ m < n, ∀ v, ¬ MetAgainAt parent? t m v) (hbefore : t.UndeclaredBefore name n) :
      SearchEnds t name n (.error (.inheritanceCycle u.qualifiedName))

section Search

variable {t u : TableSlot d} {name : String} {n : Nat}

theorem nextLink?_inheritanceStep_iff {a b : TableSlot d} :
    nextLink? (inheritanceStep name) a = some b ↔ a.parent? = some b ∧ ¬ a.HasColumn name := by
  rw [nextLink?_eq_some, inheritanceStep_eq_next_iff, column?_eq_none_iff, parent?_eq_some_iff]
  exact and_comm

/-- Up to a table of the chain it is the same that no table before it declares the column and
that the search goes on from each of them. -/
theorem undeclaredBefore_iff (hu : t.ancestorAt? n = some u) :
    t.UndeclaredBefore name n ↔ ∀ m < n, ∀ b c, linkAt? parent? t m = some b →
      linkAt? parent? t (m + 1) = some c → ¬ b.HasColumn name := by
  constructor
  · intro h m hm b c hb _
    exact h m hm b hb
  · intro h m hm b hb
    obtain ⟨c, hc⟩ := exists_linkAt?_of_le hu (Nat.succ_le_of_lt hm)
    exact h m hm b c hb hc

theorem linkAt?_inheritanceStep_iff :
    linkAt? (nextLink? (inheritanceStep name)) t n = some u ↔
      t.ancestorAt? n = some u ∧ t.UndeclaredBefore name n := by
  rw [linkAt?_walk_iff fun a b => nextLink?_inheritanceStep_iff]
  exact and_congr_right fun hu => (undeclaredBefore_iff hu).symm

theorem firstMetAgain_inheritanceStep_iff :
    FirstMetAgain (nextLink? (inheritanceStep name)) t u ↔
      ∃ n, MetAgainAt parent? t n u ∧ (∀ m < n, ∀ v, ¬ MetAgainAt parent? t m v) ∧
        t.UndeclaredBefore name n := by
  rw [firstMetAgain_walk_iff fun a b => nextLink?_inheritanceStep_iff]
  refine exists_congr fun n => and_congr_right fun hu => and_congr_right fun _ => ?_
  exact (undeclaredBefore_iff hu.1).symm

theorem undeclaredBefore_succ (hu : t.ancestorAt? n = some u) :
    t.UndeclaredBefore name (n + 1) ↔ t.UndeclaredBefore name n ∧ ¬ u.HasColumn name := by
  constructor
  · intro h
    exact ⟨fun m hm => h m (Nat.lt_succ_of_lt hm), h n (Nat.lt_succ_self n) u hu⟩
  · intro h m hm v hv
    obtain ⟨hbefore, hnot⟩ := h
    rcases Nat.lt_or_eq_of_le (Nat.le_of_lt_succ hm) with hlt | rfl
    · exact hbefore m hlt v hv
    · obtain rfl : u = v := Option.some.inj (hu.symm.trans hv)
      exact hnot

/-- A search that ends at a table has come there through fewer steps than there are tables:
had it met a table twice, it would go round for ever. -/
theorem lt_length_tableSlots (hn : linkAt? (nextLink? (inheritanceStep name)) t n = some u)
    (hlast : nextLink? (inheritanceStep name) u = none) : n < d.tableSlots.length := by
  refine lt_length_of_fresh Definition.mem_tableSlots hn ?_
  intro k _ v hv
  have hsome := hv.isSome_linkAt? (n + 1)
  rw [linkAt?, hn, Option.bind_some, hlast] at hsome
  cases hsome

/-- An outcome of the walk is an end of the search, and it comes in time. -/
theorem exists_searchEnds_of_outcome {r : Except ResolveError (Option (ColumnSlot d))}
    (h : Outcome (inheritanceStep name) (fun u => .inheritanceCycle u.qualifiedName) t r) :
    ∃ n ≤ d.tableSlots.length, SearchEnds t name n r := by
  cases h with
  | @stops n u answer hn hstop =>
    have hlast : nextLink? (inheritanceStep name) u = none := by
      rw [nextLink?, hstop]
    refine ⟨n, Nat.le_of_lt (lt_length_tableSlots hn hlast), ?_⟩
    obtain ⟨hu, hbefore⟩ := linkAt?_inheritanceStep_iff.mp hn
    obtain ⟨hc, hroot⟩ := inheritanceStep_eq_stop_iff.mp hstop
    cases answer with
    | some c => exact .declared hu hbefore (column?_eq_some_iff_firstNamed.mp hc)
    | none =>
      have hbefore' := (undeclaredBefore_succ hu).mpr ⟨hbefore, column?_eq_none_iff.mp hc⟩
      exact .rooted hu hbefore' (not_not.mp fun hne => hroot rfl (hasParent_iff.mpr hne))
  | @fails n u e hn hfail =>
    have hlast : nextLink? (inheritanceStep name) u = none := by
      rw [nextLink?, hfail]
    refine ⟨n, Nat.le_of_lt (lt_length_tableSlots hn hlast), ?_⟩
    obtain ⟨hu, hbefore⟩ := linkAt?_inheritanceStep_iff.mp hn
    obtain ⟨hc, hparent⟩ := inheritanceStep_eq_error_iff.mp hfail
    have hbefore' := (undeclaredBefore_succ hu).mpr ⟨hbefore, column?_eq_none_iff.mp hc⟩
    exact .orphaned hu hbefore' (orphaned_iff.mpr hparent)
  | @revisits u hu =>
    obtain ⟨n, hmet, hfirst, hbefore⟩ := firstMetAgain_inheritanceStep_iff.mp hu
    refine ⟨n, ?_, .revisited hmet hfirst hbefore⟩
    -- the table before the one that is met again is the last of the fresh ones
    obtain ⟨hn, m, hmn, -⟩ := hmet
    obtain ⟨v, hv⟩ := exists_linkAt?_of_le hn (Nat.sub_le n 1)
    have hlt := lt_length_of_fresh Definition.mem_tableSlots hv
      fun k hk b => hfirst k (by omega) b
    omega

theorem SearchEnds.outcome {r : Except ResolveError (Option (ColumnSlot d))}
    (h : SearchEnds t name n r) :
    Outcome (inheritanceStep name) (fun u => .inheritanceCycle u.qualifiedName) t r := by
  cases h with
  | declared hu hbefore hc =>
    refine .stops (linkAt?_inheritanceStep_iff.mpr ⟨hu, hbefore⟩) ?_
    exact inheritanceStep_eq_stop_iff.mpr ⟨column?_eq_some_iff_firstNamed.mpr hc, by simp⟩
  | rooted hu hbefore hroot =>
    obtain ⟨hbefore, hnot⟩ := (undeclaredBefore_succ hu).mp hbefore
    refine .stops (linkAt?_inheritanceStep_iff.mpr ⟨hu, hbefore⟩) ?_
    refine inheritanceStep_eq_stop_iff.mpr ⟨column?_eq_none_iff.mpr hnot, ?_⟩
    intro _ hparent
    exact hasParent_iff.mp hparent hroot
  | orphaned hu hbefore horphan =>
    obtain ⟨hbefore, hnot⟩ := (undeclaredBefore_succ hu).mp hbefore
    refine .fails (linkAt?_inheritanceStep_iff.mpr ⟨hu, hbefore⟩) ?_
    exact inheritanceStep_eq_error_iff.mpr
      ⟨column?_eq_none_iff.mpr hnot, orphaned_iff.mp horphan⟩
  | revisited hu hfirst hbefore =>
    exact .revisits (firstMetAgain_inheritanceStep_iff.mpr ⟨n, hu, hfirst, hbefore⟩)

/-- A table of the chain that declares the column is enough for the search to find one,
whatever the chain comes to farther on. -/
theorem exists_searchEnds_of_hasColumn (hu : t.ancestorAt? n = some u)
    (hcolumn : u.HasColumn name) :
    ∃ m ≤ n, ∃ c, SearchEnds t name m (.ok (some c)) := by
  induction n using Nat.strongRecOn generalizing u with
  | _ n ih =>
    by_cases hbefore : t.UndeclaredBefore name n
    · obtain ⟨c, hc⟩ := Option.ne_none_iff_exists'.mp
        fun hnone => column?_eq_none_iff.mp hnone hcolumn
      exact ⟨n, Nat.le_refl n, c, .declared hu hbefore (column?_eq_some_iff_firstNamed.mp hc)⟩
    · unfold UndeclaredBefore at hbefore
      push Not at hbefore
      obtain ⟨m, hm, v, hv, hvcolumn⟩ := hbefore
      obtain ⟨k, hk, c, hc⟩ := ih m hm hv hvcolumn
      exact ⟨k, by omega, c, hc⟩

end Search

/-- **The search is decided by the chain.** It answers what the chain of parents says, within
as many steps as there are tables; and if some table of the chain declares the column, the
search finds one, even if the chain comes back to itself or breaks off beyond that table. -/
theorem inheritedColumn?_eq_iff_searchEnds (t : TableSlot d) (name : String) :
    (∀ r, t.inheritedColumn? name = r ↔
      ∃ n ≤ d.tableSlots.length, SearchEnds t name n r) ∧
    ∀ n u, t.ancestorAt? n = some u → u.HasColumn name →
      ∃ c, t.inheritedColumn? name = .ok (some c) := by
  constructor
  · intro r
    rw [inheritedColumn?_eq_iff]
    constructor
    · intro h
      exact exists_searchEnds_of_outcome h
    · intro h
      obtain ⟨n, -, hends⟩ := h
      exact hends.outcome
  · intro n u hu hcolumn
    obtain ⟨m, -, c, hends⟩ := exists_searchEnds_of_hasColumn hu hcolumn
    exact ⟨c, inheritedColumn?_eq_iff.mpr hends.outcome⟩

/-- A table that takes a column from its parent's parent in another schema, which has its own
child for a parent; one whose parent is missing; and one that leads into a cycle without
lying on it. -/
def lineage : Definition where
  schemas :=
    [{ name := "staff"
       tables :=
        [{ name := "clerk", parentTable := "Person" },
         { name := "person", columns := [.typed "id" "int"]
           parentSchema := "LEGAL", parentTable := "party" },
         { name := "guest", parentTable := "missing" },
         { name := "left", parentTable := "right" },
         { name := "right", parentTable := "back" },
         { name := "back", parentTable := "right" }] },
     { name := "legal"
       tables :=
        [{ name := "party", columns := [.typed "Name" "text"], parentTable := "entity" },
         { name := "entity", parentTable := "party" }] }]

namespace lineage

/-- The table at a position of the first schema. -/
def staff (i : Fin 6) : TableSlot lineage := ⟨⟨0, by decide⟩, i⟩

/-- The first table of the other one. -/
def party : TableSlot lineage := ⟨⟨1, by decide⟩, ⟨0, by decide⟩⟩

end lineage

theorem inheritedColumn?_eq_iff_searchEnds_lineage :
    ((lineage.staff 0).ancestorAt? 2 = some lineage.party ∧ lineage.party.HasColumn "NAME" ∧
      ∃ c, (lineage.staff 0).inheritedColumn? "NAME" = .ok (some c)) ∧
    (∃ n ≤ lineage.tableSlots.length, SearchEnds (lineage.staff 2) "name" n
      (.error (.unknownTable "staff.guest" "staff" "missing"))) ∧
    ∃ n ≤ lineage.tableSlots.length, SearchEnds (lineage.staff 3) "name" n
      (.error (.inheritanceCycle "staff.right")) := by
  have hparty : (lineage.staff 0).ancestorAt? 2 = some lineage.party := by decide +kernel
  have hname : lineage.party.HasColumn "NAME" := by decide +kernel
  refine ⟨⟨hparty, hname, ?_⟩, ?_, ?_⟩
  · exact (inheritedColumn?_eq_iff_searchEnds (lineage.staff 0) "NAME").2 2 _ hparty hname
  · apply ((inheritedColumn?_eq_iff_searchEnds (lineage.staff 2) "name").1 _).mp
    decide +kernel
  · apply ((inheritedColumn?_eq_iff_searchEnds (lineage.staff 3) "name").1 _).mp
    decide +kernel

end TableSlot

end LayeredSchema
