import LayeredSchema.Proofs.Reference.Inheritance
import LayeredSchema.Reference.Key

/-!
# The column at the end of the proxies

A column refers to another one, that one perhaps to a third: `chainAt?` is the
chain of columns that this makes, each found from the table that declares the
one before it. `terminal` follows the chain as long as it leads to columns that
borrow their type, and this file says what it answers in terms of the chain
alone (`terminal_iff_chain`).

The walk of `terminal` and the chain are the same as far as the columns borrow
(`linkAt?_terminalStep_eq_some`), so that the outcomes of the walk translate one
by one: a link that answers is a column with a type one place further on, a
link that fails is a foreign key that does not resolve or a column that has
neither type nor foreign key, and a walk that goes round is a chain of columns
all of which borrow.
-/

namespace LayeredSchema

namespace Column

/-- The column has no type, and a foreign key to take one from. -/
def Borrows (c : Column) : Prop := c.type = none ∧ c.foreignTable ≠ ""

theorem foreignKey?_of_foreignTable {c : Column} (h : c.foreignTable ≠ "") :
    c.foreignKey? = some { schema := c.foreignSchema, table := c.foreignTable,
                           columns := [c.foreignColumn], name := c.foreignKeyName } := by
  simp [foreignKey?, hasForeignKey, h]

end Column

namespace ColumnSlot

variable {d : Definition}

/-- The column that the foreign key of a column refers to, where that can be
found. -/
def referent? (c : ColumnSlot d) : Option (ColumnSlot d) :=
  match c.targetKey with
  | .ok key => key.columns.head?
  | .error _ => none

/-- The column that is reached by following so many foreign keys. -/
def chainAt? (c : ColumnSlot d) (n : Nat) : Option (ColumnSlot d) := linkAt? referent? c n

/-- The columns of the chain before some place, the first one left out, all
borrow their types. -/
def BorrowsBefore (c : ColumnSlot d) (n : Nat) : Prop :=
  ∀ m u, 1 ≤ m → m < n → c.chainAt? m = some u → u.column.Borrows

section

variable {c u : ColumnSlot d} {n : Nat} {start : String}

/-! ## One foreign key -/

/-- A foreign key of a column asks for one column of the foreign table: the one
it names or, if it names none, the one of the same name. -/
theorem targetKey_eq (h : c.column.foreignTable ≠ "") :
    c.targetKey = Except.mapError ResolveFailure.unresolved (do
      let t ← d.findTable c.owner.schemaAt c.column.foreignSchema c.column.foreignTable
        c.qualifiedName
      let u ← t.requireColumn c.qualifiedName
        (if c.column.foreignColumn = "" then c.column.name else c.column.foreignColumn)
      return ⟨t, [u]⟩) := by
  unfold targetKey
  rw [Column.foreignKey?_of_foreignTable h]
  simp [Key.targetFor, Key.reach, TableSlot.keyOver, foreignNames, Key.names]

theorem targetKey_of_not_foreignTable (h : c.column.foreignTable = "") :
    c.targetKey = .error (.misuse (.noForeignKey c.qualifiedName)) := by
  simp [targetKey, Column.foreignKey?, Column.hasForeignKey, h]

/-- The key that is reached is one column, which the foreign table finds again
by the column's own spelling. -/
theorem targetKey_spec {key : Key d} (h : c.targetKey = .ok key) :
    c.column.foreignTable ≠ "" ∧ ∃ t u, key = ⟨t, [u]⟩ ∧
      d.findTable c.owner.schemaAt c.column.foreignSchema c.column.foreignTable
        c.qualifiedName = .ok t ∧ t.inheritedColumn? u.column.name = .ok (some u) := by
  by_cases hfk : c.column.foreignTable = ""
  · rw [targetKey_of_not_foreignTable hfk] at h
    cases h
  · rw [targetKey_eq hfk, mapError_eq_ok_iff] at h
    obtain ⟨t, ht, h⟩ := bind_eq_ok_iff.mp h
    obtain ⟨u, hu, h⟩ := bind_eq_ok_iff.mp h
    obtain rfl : (⟨t, [u]⟩ : Key d) = key := by simpa [pure, Except.pure] using h
    have hfound := TableSlot.requireColumn_eq_ok_iff.mp hu
    exact ⟨hfk, t, u, rfl, ht, TableSlot.inheritedColumn?_self hfound⟩

/-- A foreign key fails for a reference of the definition, and only a column
without one is misused. -/
theorem targetKey_eq_error {f : ResolveFailure} (h : c.targetKey = .error f) :
    (c.column.foreignTable = "" ∧ f = .misuse (.noForeignKey c.qualifiedName)) ∨
      ∃ e, f = .unresolved e ∧ ¬ e.OfProxies := by
  by_cases hfk : c.column.foreignTable = ""
  · rw [targetKey_of_not_foreignTable hfk] at h
    cases h
    exact .inl ⟨hfk, rfl⟩
  rw [targetKey_eq hfk, mapError_eq_error_iff] at h
  obtain ⟨e, he, rfl⟩ := h
  refine .inr ⟨e, rfl, ?_⟩
  rcases bind_eq_error_iff.mp he with ht | ⟨t, -, he⟩
  · exact Definition.not_ofProxies_of_findTable ht
  rcases bind_eq_error_iff.mp he with hu | ⟨u, -, he⟩
  · exact TableSlot.not_ofProxies_of_requireColumn hu
  · cases he

theorem not_ofProxies_of_targetKey {e : ResolveError}
    (h : c.targetKey = .error (.unresolved e)) : ¬ e.OfProxies := by
  rcases targetKey_eq_error h with ⟨-, hmisuse⟩ | ⟨e', he, hproxies⟩
  · cases hmisuse
  · cases he
    exact hproxies

theorem referent?_eq_some_iff :
    c.referent? = some u ↔ ∃ t, c.targetKey = .ok ⟨t, [u]⟩ := by
  unfold referent?
  constructor
  · intro h
    split at h
    next key hkey =>
      obtain ⟨-, t, v, rfl, -⟩ := targetKey_spec hkey
      obtain rfl : v = u := by simpa using h
      exact ⟨t, hkey⟩
    next => cases h
  · rintro ⟨t, h⟩
    rw [h]
    rfl

theorem foreignTable_of_referent? (h : c.referent? = some u) : c.column.foreignTable ≠ "" := by
  obtain ⟨t, ht⟩ := referent?_eq_some_iff.mp h
  exact (targetKey_spec ht).1

/-! ## One step of the walk -/

theorem terminalStep_of_error {f : ResolveFailure} (h : c.targetKey = .error f) :
    terminalStep start c = .error f := by
  rw [terminalStep, h]
  rfl

theorem terminalStep_of_referent? (h : c.referent? = some u) :
    terminalStep start c =
      if u.column.type = none then
        if u.column.foreignTable = "" then
          .error (.unresolved (.untypedColumn start u.qualifiedName))
        else .ok (.next u)
      else .ok (.stop u) := by
  obtain ⟨t, ht⟩ := referent?_eq_some_iff.mp h
  have hstep : terminalStep start c =
      if u.column.type.isSome then .ok (.stop u)
      else if u.column.hasForeignKey then .ok (.next u)
      else .error (.unresolved (.untypedColumn start u.qualifiedName)) := by
    rw [terminalStep, ht]
    rfl
  rw [hstep]
  by_cases htype : u.column.type = none
  · by_cases hfk : u.column.foreignTable = ""
    · simp [htype, hfk, Column.hasForeignKey]
    · simp [htype, hfk, Column.hasForeignKey]
  · simp [htype, Option.isSome_iff_ne_none]

/-- Either the foreign key fails or it refers to a column. -/
theorem targetKey_error_or_referent? (c : ColumnSlot d) :
    (∃ f, c.targetKey = .error f ∧ c.referent? = none) ∨
      ∃ t u, c.targetKey = .ok ⟨t, [u]⟩ ∧ c.referent? = some u := by
  cases hkey : c.targetKey with
  | error f => exact .inl ⟨f, rfl, by rw [referent?, hkey]⟩
  | ok key =>
    obtain ⟨-, t, u, rfl, -⟩ := targetKey_spec hkey
    exact .inr ⟨t, u, rfl, by rw [referent?, hkey]; rfl⟩

theorem terminalStep_eq_stop_iff :
    terminalStep start c = .ok (.stop u) ↔
      c.referent? = some u ∧ u.column.type ≠ none := by
  rcases targetKey_error_or_referent? c with ⟨f, hf, hnone⟩ | ⟨t, v, -, hv⟩
  · simp [terminalStep_of_error hf, hnone]
  · rw [terminalStep_of_referent? hv, hv]
    grind

theorem terminalStep_eq_next_iff :
    terminalStep start c = .ok (.next u) ↔ c.referent? = some u ∧ u.column.Borrows := by
  rcases targetKey_error_or_referent? c with ⟨f, hf, hnone⟩ | ⟨t, v, -, hv⟩
  · simp [terminalStep_of_error hf, hnone]
  · rw [terminalStep_of_referent? hv, hv]
    grind [Column.Borrows]

theorem terminalStep_eq_error_iff {f : ResolveFailure} :
    terminalStep start c = .error f ↔ c.targetKey = .error f ∨
      ∃ u, c.referent? = some u ∧ (u.column.type = none ∧ u.column.foreignTable = "") ∧
        f = .unresolved (.untypedColumn start u.qualifiedName) := by
  rcases targetKey_error_or_referent? c with ⟨f', hf, hnone⟩ | ⟨t, v, ht, hv⟩
  · simp [terminalStep_of_error hf, hnone, hf]
  · rw [terminalStep_of_referent? hv, hv, ht]
    grind

/-! ## The walk and the chain -/

theorem chainAt?_succ_eq_some :
    c.chainAt? (n + 1) = some u ↔ ∃ v, c.chainAt? n = some v ∧ v.referent? = some u :=
  linkAt?_succ_eq_some

/-- On the way to a column every column has a foreign key, so that it borrows
as soon as it has no type. -/
theorem borrowsBefore_iff (h : c.chainAt? n = some u) :
    c.BorrowsBefore n ↔
      ∀ m v, 1 ≤ m → m < n → c.chainAt? m = some v → v.column.type = none := by
  constructor
  · intro hb m v hm hmn hv
    exact (hb m v hm hmn hv).1
  · -- a column with one after it has a foreign key
    intro htype m v hm hmn hv
    refine ⟨htype m v hm hmn hv, ?_⟩
    obtain ⟨w, hw⟩ := exists_linkAt?_of_le h (Nat.succ_le_of_lt hmn)
    obtain ⟨v', hv', href⟩ := chainAt?_succ_eq_some.mp hw
    obtain rfl : v' = v := Option.some.inj (hv'.symm.trans hv)
    exact foreignTable_of_referent? href

/-- A step of the walk is one of the chain, to a column that borrows. -/
theorem nextLink?_terminalStep_iff {a b : ColumnSlot d} :
    nextLink? (terminalStep start) a = some b ↔ a.referent? = some b ∧ b.column.Borrows := by
  rw [nextLink?_eq_some, terminalStep_eq_next_iff]

theorem borrowsBefore_succ_iff :
    c.BorrowsBefore (n + 1) ↔ ∀ m < n, ∀ a b, linkAt? referent? c m = some a →
      linkAt? referent? c (m + 1) = some b → b.column.Borrows := by
  constructor
  · intro h m hm a b _ hb
    exact h (m + 1) b (by omega) (by omega) hb
  · intro h m v hm hmn hv
    obtain ⟨k, rfl⟩ := Nat.exists_eq_add_of_le' hm
    obtain ⟨a, ha, -⟩ := chainAt?_succ_eq_some.mp hv
    exact h k (by omega) a v ha hv

/-- The walk goes along the chain, and as far as the columns borrow. -/
theorem linkAt?_terminalStep_eq_some :
    linkAt? (nextLink? (terminalStep start)) c n = some u ↔
      c.chainAt? n = some u ∧ c.BorrowsBefore (n + 1) := by
  rw [linkAt?_walk_iff fun a b => nextLink?_terminalStep_iff, borrowsBefore_succ_iff]
  rfl

/-- A column that the walk is the first to meet again is the first that the
chain meets again. -/
theorem firstMetAgain_of_walk
    (h : FirstMetAgain (nextLink? (terminalStep start)) c u) : FirstMetAgain referent? c u := by
  obtain ⟨n, hu, hfirst, -⟩ :=
    (firstMetAgain_walk_iff fun a b => nextLink?_terminalStep_iff).mp h
  exact ⟨n, hu, hfirst⟩

/-! ## The answers -/

theorem terminal_eq_iff {r : Except ResolveFailure (ColumnSlot d)} :
    c.terminal = r ↔ Outcome (terminalStep c.qualifiedName)
      (fun v => .unresolved (.foreignKeyCycle c.qualifiedName v.qualifiedName)) c r :=
  follow_eq_iff Definition.mem_columnSlots (Definition.nodup_columnSlots d)

theorem terminal_eq_ok_iff :
    c.terminal = .ok u ↔ ∃ n, 1 ≤ n ∧ c.chainAt? n = some u ∧ u.column.type ≠ none ∧
      c.BorrowsBefore n := by
  rw [terminal_eq_iff]
  constructor
  · intro h
    cases h with
    | @stops n v _ hn hstop =>
      obtain ⟨hv, hb⟩ := linkAt?_terminalStep_eq_some.mp hn
      obtain ⟨href, htype⟩ := terminalStep_eq_stop_iff.mp hstop
      exact ⟨n + 1, by omega, chainAt?_succ_eq_some.mpr ⟨v, hv, href⟩, htype, hb⟩
  · rintro ⟨n, hn, hu, htype, hb⟩
    obtain ⟨k, rfl⟩ := Nat.exists_eq_add_of_le' hn
    obtain ⟨v, hv, href⟩ := chainAt?_succ_eq_some.mp hu
    exact .stops (linkAt?_terminalStep_eq_some.mpr ⟨hv, hb⟩)
      (terminalStep_eq_stop_iff.mpr ⟨href, htype⟩)

/-- What ends the walk with an error, other than a column that is met again. -/
theorem terminal_eq_error_iff {f : ResolveFailure}
    (hf : ∀ a b, f ≠ .unresolved (.foreignKeyCycle a b)) :
    c.terminal = .error f ↔
      (∃ n u, c.chainAt? n = some u ∧ c.BorrowsBefore (n + 1) ∧ u.targetKey = .error f) ∨
      ∃ n u, 1 ≤ n ∧ c.chainAt? n = some u ∧ c.BorrowsBefore n ∧
        (u.column.type = none ∧ u.column.foreignTable = "") ∧
        f = .unresolved (.untypedColumn c.qualifiedName u.qualifiedName) := by
  rw [terminal_eq_iff]
  constructor
  · intro h
    cases h with
    | @fails n v _ hn hfail =>
      obtain ⟨hv, hb⟩ := linkAt?_terminalStep_eq_some.mp hn
      rcases terminalStep_eq_error_iff.mp hfail with hkey | ⟨u, href, hu, rfl⟩
      · exact .inl ⟨n, v, hv, hb, hkey⟩
      · exact .inr ⟨n + 1, u, by omega, chainAt?_succ_eq_some.mpr ⟨v, hv, href⟩, hb, hu, rfl⟩
    | revisits hv => exact absurd rfl (hf _ _)
  · rintro (⟨n, u, hu, hb, hkey⟩ | ⟨n, u, hn, hu, hb, htype, rfl⟩)
    · exact .fails (linkAt?_terminalStep_eq_some.mpr ⟨hu, hb⟩)
        (terminalStep_eq_error_iff.mpr (.inl hkey))
    · obtain ⟨k, rfl⟩ := Nat.exists_eq_add_of_le' hn
      obtain ⟨v, hv, href⟩ := chainAt?_succ_eq_some.mp hu
      exact .fails (linkAt?_terminalStep_eq_some.mpr ⟨hv, hb⟩)
        (terminalStep_eq_error_iff.mpr (.inr ⟨u, href, htype, rfl⟩))

theorem terminal_eq_untyped_iff {a b : String} :
    c.terminal = .error (.unresolved (.untypedColumn a b)) ↔
      ∃ n u, 1 ≤ n ∧ c.chainAt? n = some u ∧ c.BorrowsBefore n ∧
        (u.column.type = none ∧ u.column.foreignTable = "") ∧
        a = c.qualifiedName ∧ b = u.qualifiedName := by
  rw [terminal_eq_error_iff (by simp)]
  constructor
  · rintro (⟨n, u, -, -, hkey⟩ | ⟨n, u, hn, hu, hb, htype, heq⟩)
    · exact absurd trivial (not_ofProxies_of_targetKey hkey)
    · cases heq
      exact ⟨n, u, hn, hu, hb, htype, rfl, rfl⟩
  · rintro ⟨n, u, hn, hu, hb, htype, rfl, rfl⟩
    exact .inr ⟨n, u, hn, hu, hb, htype, rfl⟩

theorem terminal_eq_unresolved_iff {e : ResolveError} :
    c.terminal = .error (.unresolved e) ∧ ¬ e.OfProxies ↔
      ∃ n u, c.chainAt? n = some u ∧ c.BorrowsBefore (n + 1) ∧
        u.targetKey = .error (.unresolved e) := by
  have hnot : ¬ e.OfProxies → ∀ a b,
      ResolveFailure.unresolved e ≠ .unresolved (.foreignKeyCycle a b) := by
    rintro he a b heq
    cases heq
    exact he trivial
  constructor
  · rintro ⟨h, he⟩
    rcases (terminal_eq_error_iff (hnot he)).mp h with hfails | ⟨n, u, -, -, -, -, heq⟩
    · exact hfails
    · cases heq
      exact absurd trivial he
  · rintro ⟨n, u, hu, hb, hkey⟩
    have he := not_ofProxies_of_targetKey hkey
    exact ⟨(terminal_eq_error_iff (hnot he)).mpr (.inl ⟨n, u, hu, hb, hkey⟩), he⟩

/-- Only a column without a foreign key is misused, and the walk follows none
but the first column and columns that borrow. -/
theorem terminal_ne_misuse (h : c.column.foreignTable ≠ "") (m : Misuse) :
    c.terminal ≠ .error (.misuse m) := by
  intro hm
  rcases (terminal_eq_error_iff (by simp)).mp hm with ⟨n, u, hu, hb, hkey⟩ | ⟨n, u, -, -, -, -, heq⟩
  · have hfk : u.column.foreignTable ≠ "" := by
      rcases Nat.eq_zero_or_pos n with rfl | hn
      · obtain rfl : c = u := Option.some.inj hu
        exact h
      · exact (hb n u hn (Nat.lt_succ_self n) hu).2
    rcases targetKey_eq_error hkey with ⟨hnone, -⟩ | ⟨e, he, -⟩
    · exact hfk hnone
    · cases he
  · cases heq

/-- A cycle is reported for the first column that is met again, and on a chain
all of whose columns borrow. -/
theorem terminal_eq_cycle {a b : String}
    (h : c.terminal = .error (.unresolved (.foreignKeyCycle a b))) :
    (∀ n, 1 ≤ n → ∃ u, c.chainAt? n = some u ∧ u.column.Borrows) ∧ a = c.qualifiedName ∧
      ∃ u, FirstMetAgain referent? c u ∧ b = u.qualifiedName := by
  cases terminal_eq_iff.mp h with
  | @fails n v _ hn hfail =>
    rcases terminalStep_eq_error_iff.mp hfail with hkey | ⟨u, -, -, hcycle⟩
    · rcases targetKey_eq_error hkey with ⟨-, hmisuse⟩ | ⟨e, he, hproxies⟩
      · cases hmisuse
      · cases he
        exact absurd trivial hproxies
    · cases hcycle
  | @revisits u hu =>
    refine ⟨fun n hn => ?_, rfl, u, firstMetAgain_of_walk hu, rfl⟩
    obtain ⟨w, hw⟩ := Option.isSome_iff_exists.mp (hu.isSome_linkAt? n)
    obtain ⟨hchain, hb⟩ := linkAt?_terminalStep_eq_some.mp hw
    exact ⟨w, hchain, hb n w hn (Nat.lt_succ_self n) hchain⟩

/-- A chain all of whose columns borrow goes round. -/
theorem exists_terminal_eq_cycle
    (h : ∀ n, 1 ≤ n → ∃ u, c.chainAt? n = some u ∧ u.column.Borrows) :
    ∃ b, c.terminal = .error (.unresolved (.foreignKeyCycle c.qualifiedName b)) := by
  -- the walk has an outcome, and the first two of them need a column that does not borrow
  have hout := terminal_eq_iff.mp (rfl : c.terminal = c.terminal)
  generalize c.terminal = r at hout
  cases hout with
  | @stops n v t hn hstop =>
    have hv := (linkAt?_terminalStep_eq_some.mp hn).1
    obtain ⟨href, htype⟩ := terminalStep_eq_stop_iff.mp hstop
    obtain ⟨u, hu, hborrows⟩ := h (n + 1) (by omega)
    have ht : c.chainAt? (n + 1) = some t := chainAt?_succ_eq_some.mpr ⟨v, hv, href⟩
    obtain rfl : t = u := Option.some.inj (ht.symm.trans hu)
    exact absurd hborrows.1 htype
  | @fails n v f hn hfail =>
    have hv := (linkAt?_terminalStep_eq_some.mp hn).1
    obtain ⟨u, hu, hborrows⟩ := h (n + 1) (by omega)
    obtain ⟨v', hv', href⟩ := chainAt?_succ_eq_some.mp hu
    obtain rfl : v' = v := Option.some.inj (hv'.symm.trans hv)
    rcases terminalStep_eq_error_iff.mp hfail with hkey | ⟨w, hw, htype, -⟩
    · rw [referent?, hkey] at href
      cases href
    · obtain rfl : w = u := Option.some.inj (hw.symm.trans href)
      exact absurd htype.2 hborrows.2
  | revisits hu => exact ⟨_, rfl⟩

end

/-- **The answer lies in the chain.** For a column with a foreign key, `terminal`
answers with the first column of the chain that has a type, the column itself
included if the chain comes back to it. Where the first column after it that
does not borrow has neither type nor foreign key, that column is reported, and
where all of them borrow, the first one that is met again. Any other error is
that of a foreign key on the way that does not resolve. Each column of the chain
is declared where the foreign table finds it by its own name. -/
theorem terminal_iff_chain (c : ColumnSlot d) (h : c.column.foreignTable ≠ "") :
    (∀ t, c.terminal = .ok t ↔ ∃ n, 1 ≤ n ∧ c.chainAt? n = some t ∧ t.column.type ≠ none ∧
      ∀ m u, 1 ≤ m → m < n → c.chainAt? m = some u → u.column.type = none) ∧
    (∀ a b, c.terminal = .error (.unresolved (.untypedColumn a b)) ↔
      ∃ n u, 1 ≤ n ∧ c.chainAt? n = some u ∧ c.BorrowsBefore n ∧
        (u.column.type = none ∧ u.column.foreignTable = "") ∧
        a = c.qualifiedName ∧ b = u.qualifiedName) ∧
    ((∃ a b, c.terminal = .error (.unresolved (.foreignKeyCycle a b))) ↔
      ∀ n, 1 ≤ n → ∃ u, c.chainAt? n = some u ∧ u.column.Borrows) ∧
    (∀ a b, c.terminal = .error (.unresolved (.foreignKeyCycle a b)) →
      a = c.qualifiedName ∧ ∃ u, FirstMetAgain referent? c u ∧ b = u.qualifiedName) ∧
    (∀ e, c.terminal = .error (.unresolved e) ∧ ¬ e.OfProxies ↔
      ∃ n u, c.chainAt? n = some u ∧ c.BorrowsBefore (n + 1) ∧
        u.targetKey = .error (.unresolved e)) ∧
    (∀ m, c.terminal ≠ .error (.misuse m)) ∧
    ∀ n u v, c.chainAt? n = some u → c.chainAt? (n + 1) = some v →
      ∃ t, d.findTable u.owner.schemaAt u.column.foreignSchema u.column.foreignTable
          u.qualifiedName = .ok t ∧ t.inheritedColumn? v.column.name = .ok (some v) := by
  refine ⟨fun t => ?_, fun _ _ => terminal_eq_untyped_iff, ⟨?_, ?_⟩, ?_,
    fun _ => terminal_eq_unresolved_iff, terminal_ne_misuse h, ?_⟩
  · rw [terminal_eq_ok_iff]
    refine exists_congr fun n => and_congr_right fun _ => and_congr_right fun ht => ?_
    rw [borrowsBefore_iff ht]
  · rintro ⟨a, b, hcycle⟩
    exact (terminal_eq_cycle hcycle).1
  · intro hall
    exact ⟨_, exists_terminal_eq_cycle hall⟩
  · intro a b hcycle
    exact (terminal_eq_cycle hcycle).2
  · intro n u v hu hv
    obtain ⟨u', hu', href⟩ := chainAt?_succ_eq_some.mp hv
    obtain rfl : u' = u := Option.some.inj (hu'.symm.trans hu)
    obtain ⟨t, ht⟩ := referent?_eq_some_iff.mp href
    obtain ⟨-, t', v', hkey, htable, hfound⟩ := targetKey_spec ht
    cases hkey
    exact ⟨t, htable, hfound⟩

/-- A proxy whose chain crosses schemas, takes a column from an ancestor and comes
to a type; a column with a type that refers to itself; and a proxy that leads into
a cycle without being part of it. -/
def catalogue : Definition where
  schemas :=
    [{ name := "lending"
       tables :=
        [{ name := "loans"
           columns :=
            [(Column.proxy "title").references "CATALOGUE" "editions" "TITLE",
              (Column.typed "id" "int").references "" "loans" "ID",
              (Column.proxy "left").references "" "loans" "right",
              (Column.proxy "right").references "" "loans" "back",
              (Column.proxy "back").references "" "loans" "right"] }] },
     { name := "catalogue"
       tables :=
        [{ name := "editions", parentTable := "works" },
         { name := "works", columns := [(Column.proxy "Title").references "" "names" "text"] },
         { name := "names", columns := [.typed "text" "varchar"] }] }]

namespace catalogue

/-- The column at a position of the first table. -/
def loan (i : Fin 5) : ColumnSlot catalogue := ⟨⟨⟨0, by decide⟩, ⟨0, by decide⟩⟩, i⟩

/-- The column with a type that the first proxy leads to. -/
def text : ColumnSlot catalogue := ⟨⟨⟨1, by decide⟩, ⟨2, by decide⟩⟩, ⟨0, by decide⟩⟩

end catalogue

theorem terminal_iff_chain_catalogue :
    ((catalogue.loan 0).column.foreignTable ≠ "" ∧
      (catalogue.loan 0).terminal = .ok catalogue.text) ∧
    ((catalogue.loan 1).column.foreignTable ≠ "" ∧
      (catalogue.loan 1).terminal = .ok (catalogue.loan 1)) ∧
    (catalogue.loan 2).column.foreignTable ≠ "" ∧
      (∀ n, 1 ≤ n → ∃ u, (catalogue.loan 2).chainAt? n = some u ∧ u.column.Borrows) ∧
      ∃ u, FirstMetAgain referent? (catalogue.loan 2) u ∧
        "lending.loans.right" = u.qualifiedName := by
  refine ⟨⟨by decide, ?_⟩, ⟨by decide, ?_⟩, by decide, ?_⟩
  · have hproxy : ((catalogue.loan 0).chainAt? 1).map (fun u => u.column.type) = some none := by
      decide +kernel
    refine ((terminal_iff_chain (catalogue.loan 0) (by decide)).1 catalogue.text).mpr
      ⟨2, by decide, by decide +kernel, by decide, fun m u hm hm2 hu => ?_⟩
    obtain rfl : m = 1 := by omega
    simpa [hu] using hproxy
  · exact ((terminal_iff_chain (catalogue.loan 1) (by decide)).1 (catalogue.loan 1)).mpr
      ⟨1, by decide, by decide +kernel, by decide, fun m u hm hm1 => by omega⟩
  · have heval : (match (catalogue.loan 2).terminal with
        | .error f => some f
        | .ok _ => none) = some (.unresolved
          (.foreignKeyCycle "lending.loans.left" "lending.loans.right")) := by
      decide +kernel
    have hcycle : (catalogue.loan 2).terminal = .error (.unresolved
        (.foreignKeyCycle "lending.loans.left" "lending.loans.right")) := by
      split at heval
      next f hf => rw [hf, Option.some.inj heval]
      next => cases heval
    obtain ⟨-, -, hborrow, hagain, -⟩ := terminal_iff_chain (catalogue.loan 2) (by decide)
    exact ⟨hborrow.mp ⟨_, _, hcycle⟩, (hagain _ _ hcycle).2⟩

end ColumnSlot

end LayeredSchema
