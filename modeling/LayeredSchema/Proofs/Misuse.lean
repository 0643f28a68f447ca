import LayeredSchema.Proofs.Order.Numbering
import LayeredSchema.Proofs.Reference.Agreement

/-!
# Misuse stays with the caller

Two questions about references make no sense: where a column refers to that has no foreign key,
and where a key refers to that has no columns. Whoever asks one of them directly has misused the
library (`ColumnSlot.misused_targetKey_iff`, `Key.misused_target_iff`). No function asks them on
its own account, however malformed the definition is: building the graph asks columns that have
a foreign key, a foreign key of a table without columns is a fault of the definition, and the
chain of proxies goes on only from columns that borrow, always by the one column of a key that
was found (`Definition.misuse_confined`).

The graph by number has reads of its own that could fail, and none does.
-/

namespace LayeredSchema

variable {d : Definition}

/-- The answer is that the question makes no sense. -/
def Misused {α : Type} (answer : Except ResolveFailure α) : Prop :=
  ∃ m, answer = .error (.misuse m)

theorem not_misused_iff {α : Type} {answer : Except ResolveFailure α} :
    ¬ Misused answer ↔ ∀ f, answer = .error f → ∃ e, f = .unresolved e := by
  constructor
  · intro h f hf
    cases f with
    | unresolved e => exact ⟨e, rfl⟩
    | misuse m => exact absurd ⟨m, hf⟩ h
  · rintro h ⟨m, hm⟩
    obtain ⟨e, he⟩ := h _ hm
    cases he

/-! ## Keys -/

theorem Key.misused_target_iff {k : Key d} {ref : KeyRef} :
    Misused (k.target ref) ↔ k.columns = [] := by
  constructor
  · intro h
    by_contra hcolumns
    exact not_misused_iff.mpr (fun _ => Key.exists_unresolved_of_targetFor hcolumns) h
  · intro h
    exact ⟨_, by rw [Key.target, Key.targetFor, if_pos h]⟩

namespace TableSlot

theorem not_misused_targetKey (t : TableSlot d) (fk : ForeignKey) : ¬ Misused (t.targetKey fk) :=
  not_misused_iff.mpr fun _ => exists_unresolved_of_targetKey

theorem targetKey_of_no_columns (t : TableSlot d) {fk : ForeignKey} (h : fk.columns = []) :
    t.targetKey fk = .error (.unresolved (.emptyKey t.qualifiedName fk.name)) := by
  rw [targetKey, if_pos h]

/-- A key that is found has a column for each of the local ones, and so it has one. -/
theorem length_columns_of_targetKey {t : TableSlot d} {fk : ForeignKey} {k : Key d}
    (h : t.targetKey fk = .ok k) : k.columns.length = fk.columns.length ∧ k.columns ≠ [] := by
  obtain ⟨hcolumns, -⟩ := targetKey_eq_ok_iff.mp h
  obtain ⟨own, -, hlists, hreached⟩ := exists_reached_of_targetKey h
  have hlength := hreached.length_eq.trans hlists.length_eq
  refine ⟨hlength, fun hnil => hcolumns ?_⟩
  rw [hnil, List.length_nil] at hlength
  exact List.eq_nil_of_length_eq_zero hlength.symm

end TableSlot

/-! ## Columns -/

namespace ColumnSlot

variable {c u : ColumnSlot d}

theorem misused_targetKey_iff : Misused c.targetKey ↔ c.column.foreignTable = "" := by
  constructor
  · rintro ⟨m, hm⟩
    rcases targetKey_eq_error hm with ⟨hnone, -⟩ | ⟨e, he, -⟩
    · exact hnone
    · cases he
  · intro h
    exact ⟨_, targetKey_of_not_foreignTable h⟩

theorem exists_columns_eq_of_targetKey {k : Key d} (h : c.targetKey = .ok k) :
    ∃ u, k.columns = [u] := by
  obtain ⟨-, t, u, rfl, -⟩ := targetKey_spec h
  exact ⟨u, rfl⟩

theorem terminal_of_not_foreignTable (h : c.column.foreignTable = "") :
    c.terminal = .error (.misuse (.noForeignKey c.qualifiedName)) := by
  rw [terminal, follow, terminalStep_of_error (targetKey_of_not_foreignTable h)]

theorem misused_terminal_iff : Misused c.terminal ↔ c.column.foreignTable = "" := by
  constructor
  · rintro ⟨m, hm⟩
    by_contra h
    exact terminal_ne_misuse h m hm
  · intro h
    exact ⟨_, terminal_of_not_foreignTable h⟩

theorem not_misused_terminalStep {start : String} (h : c.column.foreignTable ≠ "") :
    ¬ Misused (terminalStep start c) := by
  refine not_misused_iff.mpr fun f hf => ?_
  rcases terminalStep_eq_error_iff.mp hf with hkey | ⟨u, -, -, rfl⟩
  · exact not_misused_iff.mp (mt misused_targetKey_iff.mp h) f hkey
  · exact ⟨_, rfl⟩

/-- The links after the first one borrow, so that there is a foreign key to follow. -/
theorem not_misused_of_linkAt? {start : String} {n : Nat} (hn : 1 ≤ n)
    (h : linkAt? (nextLink? (terminalStep start)) c n = some u) :
    ¬ Misused (terminalStep start u) := by
  obtain ⟨hu, hborrows⟩ := linkAt?_terminalStep_eq_some.mp h
  exact not_misused_terminalStep (hborrows n u hn (Nat.lt_succ_self n) hu).2

end ColumnSlot

/-! ## The graph -/

namespace Definition

theorem not_misused_dependencyGraph (d : Definition) (options : OrderOptions) :
    ¬ Misused (d.dependencyGraph options) := by
  refine not_misused_iff.mpr fun f hf => ?_
  obtain ⟨before, r, after, hsplit, -, hr⟩ := dependencyGraph_eq_error_iff.mp hf
  obtain ⟨t, ht⟩ := mem_references_iff.mp (hsplit ▸ List.mem_append_cons_self)
  exact Reference.exists_unresolved ht hr

theorem creationOrder_ne_misuse (d : Definition) (options : OrderOptions) (m : Misuse) :
    d.creationOrder options ≠ .error (.failed (.misuse m)) := by
  intro h
  rcases bind_eq_error_iff.mp h with hgraph | ⟨g, -, horder⟩
  · obtain ⟨f, hf, hfailed⟩ := mapError_eq_error_iff.mp hgraph
    cases hfailed
    exact not_misused_dependencyGraph d options ⟨m, hf⟩
  · obtain ⟨-, hcycle⟩ := Digraph.creationOrder_eq_error_iff.mp horder
    cases hcycle

/-- **Only a caller can misuse the library.** Building the graph of a definition fails for faults
of the definition alone. By number it fails alike, or else has all it needs in range, for every
answer that the graph gives. The chain of proxies that begins at a column makes no sense exactly
if the column has no foreign key. Then that is said of this column, while no column further on
can lack one, and no key that is found for a column lacks its column. A foreign key of a table
always makes sense: one without columns is a fault, and any other is for as many columns as it
leads to. -/
theorem misuse_confined (d : Definition) :
    (∀ options : OrderOptions,
      ¬ Misused (d.dependencyGraph options) ∧
      (∀ m, d.creationOrder options ≠ .error (.failed (.misuse m))) ∧
      Alike Numbered.Answers (d.numberedGraph options) (d.dependencyGraph options)) ∧
    (∀ c : ColumnSlot d,
      (Misused c.terminal ↔ c.column.foreignTable = "") ∧
      (c.column.foreignTable = "" →
        c.terminal = .error (.misuse (.noForeignKey c.qualifiedName))) ∧
      (∀ n u, 1 ≤ n →
        linkAt? (nextLink? (ColumnSlot.terminalStep c.qualifiedName)) c n = some u →
        ¬ Misused (ColumnSlot.terminalStep c.qualifiedName u)) ∧
      (Misused c.targetKey ↔ c.column.foreignTable = "") ∧
      ∀ k, c.targetKey = .ok k → ∃ u, k.columns = [u]) ∧
    (∀ (t : TableSlot d) (fk : ForeignKey),
      ¬ Misused (t.targetKey fk) ∧
      (fk.columns = [] →
        t.targetKey fk = .error (.unresolved (.emptyKey t.qualifiedName fk.name))) ∧
      ∀ k, t.targetKey fk = .ok k → k.columns.length = fk.columns.length ∧ k.columns ≠ []) ∧
    ∀ (k : Key d) (ref : KeyRef), Misused (k.target ref) ↔ k.columns = [] := by
  refine ⟨fun options => ⟨not_misused_dependencyGraph d options,
    creationOrder_ne_misuse d options, alike_numberedGraph d options⟩, fun c => ?_,
    fun t fk => ⟨t.not_misused_targetKey fk, t.targetKey_of_no_columns,
      fun _ => TableSlot.length_columns_of_targetKey⟩, fun _ _ => Key.misused_target_iff⟩
  exact ⟨ColumnSlot.misused_terminal_iff, ColumnSlot.terminal_of_not_foreignTable,
    fun _ _ => ColumnSlot.not_misused_of_linkAt?, ColumnSlot.misused_targetKey_iff,
    fun _ => ColumnSlot.exists_columns_eq_of_targetKey⟩

/-- A column of the bank with a type and no foreign key. -/
def bank.id : ColumnSlot bank := ⟨bank.place 0, ⟨0, by decide⟩⟩

/-- A column of the bank whose foreign key leads to an inherited column. -/
def bank.source : ColumnSlot bank := ⟨bank.place 2, ⟨2, by decide⟩⟩

theorem misuse_confined_bank :
    (∃ n g, bank.numberedGraph {} = .ok n ∧ bank.dependencyGraph {} = .ok g ∧
      n.neighbours n.parents (bank.place 2) = .ok [bank.place 1, bank.entries]) ∧
    strayed.numberedGraph {} = .error strayed.failure ∧
    bank.id.terminal = .error (.misuse (.noForeignKey "public.accounts.id")) ∧
    ¬ Misused bank.source.terminal ∧
    (bank.place 2).targetKey { columns := [], foreignTable := "accounts", name := "loose" } =
      .error (.unresolved (.emptyKey "public.transfers" "loose")) := by
  obtain ⟨hgraph, hcolumn, htable, -⟩ := misuse_confined bank
  refine ⟨?_, ?_, (hcolumn bank.id).2.1 (by decide), ?_, (htable _ _).2.1 rfl⟩
  · have heval : (bank.dependencyGraph {}).toOption.map (fun g => g.parents (bank.place 2)) =
        some [bank.place 1, bank.entries] := by
      decide +kernel
    obtain ⟨g, hg, hparents⟩ := Option.map_eq_some_iff.mp heval
    obtain ⟨-, -, halike⟩ := hgraph {}
    rw [eq_ok_of_toOption hg] at halike ⊢
    generalize bank.numberedGraph {} = x at halike ⊢
    cases halike with
    | @ok n _ h => exact ⟨n, g, rfl, rfl, hparents ▸ h.parents (bank.place 2)⟩
  · have heval : (strayed.dependencyGraph {}).map (fun _ => ()) = .error strayed.failure := by
      decide +kernel
    obtain ⟨-, -, halike⟩ := (misuse_confined strayed).1 {}
    rw [map_eq_error_iff.mp heval] at halike
    generalize strayed.numberedGraph {} = x at halike ⊢
    cases halike with
    | error => rfl
  · exact mt (hcolumn bank.source).1.mp (by decide)

end Definition

end LayeredSchema
