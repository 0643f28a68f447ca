import LayeredSchema.Proofs.Reference.Ancestry
import LayeredSchema.Proofs.Reference.Key
import LayeredSchema.Proofs.Reference.Terminal

/-!
# Three ways to follow a foreign key

A foreign key of a table can be followed as such, or by finding its local columns first and
following it from them; one of a column can be followed as such, or written as a foreign key
of the table over that one column. The ways differ in who is said to refer, which shows in
errors only, and so their answers are the same up to that (`SameUpTo`). The relation is kept
by sequences and traversals (`SameUpTo.bind`, `SameUpTo.mapM`), so that it carries over from
the lookup of a table to a whole key, one function after another.

A key that is found is what the names in the foreign key say, whichever way it was found: the
table that they name, and on it the nearest declaration of each foreign column, a blank one
standing for the local name (`Key.Reached`).
-/

namespace LayeredSchema

/-! ## Answers up to the referrer -/

/-- The error without the referrer. -/
def ResolveError.unattributed : ResolveError → ResolveError
  | unknownSchema _ schema => unknownSchema "" schema
  | unknownTable _ schema table => unknownTable "" schema table
  | unknownColumn _ schema table column => unknownColumn "" schema table column
  | countMismatch _ target localCount foreignCount =>
    countMismatch "" target localCount foreignCount
  | emptyKey _ name => emptyKey "" name
  | inheritanceCycle table => inheritanceCycle table
  | foreignKeyCycle start column => foreignKeyCycle start column
  | untypedColumn _ column => untypedColumn "" column

/-- The failure without the referrer. -/
def ResolveFailure.unattributed : ResolveFailure → ResolveFailure
  | unresolved error => unresolved error.unattributed
  | misuse question => misuse question

/-- Two computations have the same value, or fail for the same error once part of it has been
erased. -/
def SameUpTo {ε α : Type} (erase : ε → ε) (x y : Except ε α) : Prop :=
  x.mapError erase = y.mapError erase

namespace SameUpTo

variable {ε α β : Type} {erase : ε → ε} {x y : Except ε α}

@[refl]
theorem refl (x : Except ε α) : SameUpTo erase x x := rfl

theorem eq_ok_iff (h : SameUpTo erase x y) {a : α} : x = .ok a ↔ y = .ok a := by
  rw [← mapError_eq_ok_iff (f := erase), h, mapError_eq_ok_iff]

theorem bind {f g : α → Except ε β} (h : SameUpTo erase x y)
    (hrest : ∀ a, SameUpTo erase (f a) (g a)) : SameUpTo erase (x >>= f) (y >>= g) := by
  cases x with
  | ok a =>
    obtain rfl : y = .ok a := h.eq_ok_iff.mp rfl
    exact hrest a
  | error e =>
    cases y with
    | ok b => cases h
    | error e' => exact congrArg Except.error (Except.error.inj h)

theorem mapM {f g : α → Except ε β} {l : List α} (h : ∀ a, SameUpTo erase (f a) (g a)) :
    SameUpTo erase (l.mapM f) (l.mapM g) := by
  induction l with
  | nil => rfl
  | cons a l ih =>
    rw [List.mapM_cons, List.mapM_cons]
    exact (h a).bind fun b => ih.bind fun bs => .refl _

/-- What is the same of two errors is the same of the failures that they make. -/
theorem unresolved {x y : Except ResolveError α}
    (h : SameUpTo ResolveError.unattributed x y) :
    SameUpTo ResolveFailure.unattributed (x.mapError .unresolved) (y.mapError .unresolved) := by
  cases x with
  | ok a =>
    obtain rfl : y = .ok a := h.eq_ok_iff.mp rfl
    rfl
  | error e =>
    cases y with
    | ok b => cases h
    | error e' =>
      exact congrArg (Except.error ∘ ResolveFailure.unresolved) (Except.error.inj h)

end SameUpTo

variable {d : Definition}

/-! ## Who asks makes no difference -/

theorem Definition.findTable_sameUpTo (home : Fin d.schemas.length)
    (schema table referrer referrer' : String) :
    SameUpTo ResolveError.unattributed (d.findTable home schema table referrer)
      (d.findTable home schema table referrer') := by
  unfold findTable
  split
  next => rfl
  next s _ =>
    cases d.tableIn? s table with
    | none => rfl
    | some t => rfl

theorem TableSlot.requireColumn_sameUpTo (t : TableSlot d) (referrer referrer' name : String) :
    SameUpTo ResolveError.unattributed (t.requireColumn referrer name)
      (t.requireColumn referrer' name) := by
  unfold requireColumn
  rcases t.inheritedColumn? name with e | _ | c
  · rfl
  · rfl
  · rfl

theorem TableSlot.keyOver_sameUpTo (t : TableSlot d) (referrer referrer' : String)
    (names : List String) :
    SameUpTo ResolveError.unattributed (t.keyOver referrer names) (t.keyOver referrer' names) :=
  (SameUpTo.mapM fun name => t.requireColumn_sameUpTo referrer referrer' name).bind
    fun _ => .refl _

namespace Key

theorem reach_sameUpTo (k : Key d) (ref : KeyRef) (referrer referrer' : String) :
    SameUpTo ResolveError.unattributed (k.reach ref referrer) (k.reach ref referrer') := by
  refine (d.findTable_sameUpTo _ _ _ referrer referrer').bind fun t => ?_
  split
  next => rfl
  next => exact t.keyOver_sameUpTo referrer referrer' _

theorem targetFor_sameUpTo (k : Key d) (ref : KeyRef) (referrer referrer' : String) :
    SameUpTo ResolveFailure.unattributed (k.targetFor ref referrer)
      (k.targetFor ref referrer') := by
  unfold targetFor
  split
  next => rfl
  next => exact (k.reach_sameUpTo ref referrer referrer').unresolved

/-! ## One column -/

/-- The reference lists the one column or, where that is blank, perhaps none. -/
def ListsOne (ref : KeyRef) (column : String) : Prop :=
  ref.columns = [column] ∨ column = "" ∧ ref.columns = []

/-- From one column a foreign key leads to one column, whether a blank one is listed or none. -/
theorem targetFor_of_listsOne {c : ColumnSlot d} {ref : KeyRef} {column referrer : String}
    (h : ListsOne ref column) :
    targetFor ⟨c.owner, [c]⟩ ref referrer = Except.mapError ResolveFailure.unresolved (do
      let t ← d.findTable c.owner.schemaAt ref.schema ref.table referrer
      t.keyOver referrer [if column = "" then c.column.name else column]) := by
  rcases h with h | ⟨rfl, h⟩
  · simp [targetFor, reach, foreignNames, names, h]
  · simp [targetFor, reach, foreignNames, names, h]

end Key

/-! ## What a key that is found consists of -/

namespace TableSlot

/-- The column is the nearest of the name: the first that some table of the chain of parents
declares, where no table before it in the chain declares one. -/
def NearestNamed (t : TableSlot d) (name : String) (c : ColumnSlot d) : Prop :=
  ∃ n, t.ancestorAt? n = some c.owner ∧ t.UndeclaredBefore name n ∧ c.owner.FirstNamed name c

theorem inheritedColumn?_eq_some_iff_nearestNamed {t : TableSlot d} {name : String}
    {c : ColumnSlot d} : t.inheritedColumn? name = .ok (some c) ↔ t.NearestNamed name c := by
  constructor
  · intro h
    obtain ⟨n, -, hends⟩ := exists_searchEnds_of_outcome (inheritedColumn?_eq_iff.mp h)
    cases hends with
    | declared hu hbefore hc =>
      obtain rfl := hc.owner
      exact ⟨n, hu, hbefore, hc⟩
  · intro h
    obtain ⟨n, hu, hbefore, hc⟩ := h
    exact inheritedColumn?_eq_iff.mpr (SearchEnds.declared hu hbefore hc).outcome

theorem requireColumn_eq_ok_iff_nearestNamed {t : TableSlot d} {referrer name : String}
    {c : ColumnSlot d} : t.requireColumn referrer name = .ok c ↔ t.NearestNamed name c :=
  requireColumn_eq_ok_iff.trans inheritedColumn?_eq_some_iff_nearestNamed

end TableSlot

/-- The name that a reference gives for the foreign column at a position, where a blank one or
none stands for the local name. -/
def KeyRef.foreignName (ref : KeyRef) (i : Nat) (own : String) : String :=
  match ref.columns[i]? with
  | none => own
  | some name => if name = "" then own else name

/-- A key is what a reference over another key leads to: the table that it names, with one
column for each of the local ones. -/
structure Key.Reached (own : Key d) (ref : KeyRef) (k : Key d) : Prop where
  table : ∃ s, d.schemaFrom? own.table.schemaAt ref.schema = some s ∧
    d.tableIn? s ref.table = some k.table
  length_eq : k.columns.length = own.columns.length
  nearest : ∀ i c u, own.columns[i]? = some c → k.columns[i]? = some u →
    k.table.NearestNamed (ref.foreignName i c.column.name) u

/-- A key consists of the columns that names mean on a table. -/
structure Key.Lists (k : Key d) (t : TableSlot d) (names : List String) : Prop where
  table : k.table = t
  length_eq : k.columns.length = names.length
  nearest : ∀ (i : Nat) (name : String) (c : ColumnSlot d), names[i]? = some name →
    k.columns[i]? = some c → t.NearestNamed name c

/-- Related lists are related place by place. -/
theorem getElem?_of_forall₂ {α β : Type} {R : α → β → Prop} {l : List α} {ys : List β}
    (h : List.Forall₂ R l ys) {i : Nat} {a : α} {b : β} (ha : l[i]? = some a)
    (hb : ys[i]? = some b) : R a b := by
  obtain ⟨hi, rfl⟩ := List.getElem?_eq_some_iff.mp ha
  obtain ⟨hj, rfl⟩ := List.getElem?_eq_some_iff.mp hb
  exact h.get hi hj

theorem TableSlot.lists_of_keyOver {t : TableSlot d} {referrer : String} {names : List String}
    {k : Key d} (h : t.keyOver referrer names = .ok k) : k.Lists t names := by
  obtain ⟨htable, hcolumns⟩ := keyOver_eq_ok_iff.mp h
  refine ⟨htable, hcolumns.length_eq.symm, fun i name c hname hc => ?_⟩
  exact requireColumn_eq_ok_iff_nearestNamed.mp (getElem?_of_forall₂ hcolumns hname hc)

theorem getElem?_foreignNames {ref : KeyRef} {localNames : List String} {i : Nat} {own : String}
    (hcount : ref.columns ≠ [] → ref.columns.length = localNames.length)
    (h : localNames[i]? = some own) :
    (foreignNames localNames ref.columns)[i]? = some (ref.foreignName i own) := by
  unfold foreignNames KeyRef.foreignName
  by_cases hnil : ref.columns = []
  · -- no names are listed, and every column stands for itself
    rw [if_pos hnil, h, hnil, List.getElem?_nil]
  · have hi : i < ref.columns.length := by
      rw [hcount hnil]
      exact (List.getElem?_eq_some_iff.mp h).1
    rw [if_neg hnil, List.getElem?_zipWith, h, List.getElem?_eq_getElem hi]

theorem length_foreignNames {ref : KeyRef} {localNames : List String}
    (hcount : ref.columns ≠ [] → ref.columns.length = localNames.length) :
    (foreignNames localNames ref.columns).length = localNames.length := by
  unfold foreignNames
  by_cases hnil : ref.columns = []
  · rw [if_pos hnil]
  · rw [if_neg hnil, List.length_zipWith, hcount hnil, Nat.min_self]

/-- **What is found.** A foreign key that can be followed leads to what its names say. -/
theorem Key.reached_of_targetFor {own k : Key d} {ref : KeyRef} {referrer : String}
    (h : own.targetFor ref referrer = .ok k) : own.Reached ref k := by
  obtain ⟨-, hreach⟩ := targetFor_eq_ok_iff.mp h
  obtain ⟨t, ht, hfits, hkey⟩ := reach_eq_ok_iff.mp hreach
  have hlength : own.names.length = own.columns.length := List.length_map _
  have hcount : ref.columns ≠ [] → ref.columns.length = own.names.length := by
    intro hsome
    rw [hlength]
    exact not_not.mp fun hne => hfits ⟨hsome, hne⟩
  have hlists := TableSlot.lists_of_keyOver hkey
  obtain rfl := hlists.table
  refine ⟨Definition.findTable_eq_ok_iff.mp ht, ?_, fun i c u hc hu => ?_⟩
  · rw [hlists.length_eq, length_foreignNames hcount, hlength]
  · refine hlists.nearest i _ u (getElem?_foreignNames hcount ?_) hu
    rw [names, List.getElem?_map, hc, Option.map_some]

/-! ## The three ways -/

/-- The foreign key of a table says what that of a column says. Its name and whatever does not
bear on where it leads may differ. -/
structure ForeignKey.Restates (fk : ForeignKey) (c : Column) : Prop where
  columns : fk.columns = [c.name]
  foreignSchema : fk.foreignSchema = c.foreignSchema
  foreignTable : fk.foreignTable = c.foreignTable
  foreignColumns : fk.foreignColumns = [c.foreignColumn] ∨
    c.foreignColumn = "" ∧ fk.foreignColumns = []

namespace TableSlot

/-- The key that a foreign key of a table leads to from the key over its local columns. -/
def targetKeyOver (t : TableSlot d) (fk : ForeignKey) : Except ResolveFailure (Key d) := do
  let own ← (t.localKey fk.columns).mapError .unresolved
  own.target fk.target

theorem targetKey_sameUpTo (t : TableSlot d) {fk : ForeignKey} (h : fk.columns ≠ []) :
    SameUpTo ResolveFailure.unattributed (t.targetKey fk) (t.targetKeyOver fk) := by
  rw [targetKey, if_neg h]
  exact (t.keyOver_sameUpTo _ _ fk.columns).unresolved.bind fun own => own.targetFor_sameUpTo ..

theorem exists_localKey_of_targetKeyOver {t : TableSlot d} {fk : ForeignKey} {k : Key d}
    (h : t.targetKeyOver fk = .ok k) :
    ∃ own, t.localKey fk.columns = .ok own ∧ own.target fk.target = .ok k := by
  obtain ⟨own, hown, hk⟩ := bind_eq_ok_iff.mp h
  exact ⟨own, mapError_eq_ok_iff.mp hown, hk⟩

/-- A column that is the first of its name is the one that its name finds. -/
theorem keyOver_name {t : TableSlot d} {c : ColumnSlot d} (h : t.FirstNamed c.column.name c)
    (referrer : String) : t.keyOver referrer [c.column.name] = .ok ⟨t, [c]⟩ := by
  have hnearest : t.NearestNamed c.column.name c := by
    obtain rfl := h.owner
    exact ⟨0, rfl, fun m hm => absurd hm (Nat.not_lt_zero m), h⟩
  exact keyOver_eq_ok_iff.mpr
    ⟨rfl, .cons (requireColumn_eq_ok_iff_nearestNamed.mpr hnearest) .nil⟩

theorem targetKey_column_sameUpTo {t : TableSlot d} {c : ColumnSlot d} {fk : ForeignKey}
    (hfirst : t.FirstNamed c.column.name c) (htable : c.column.foreignTable ≠ "")
    (h : fk.Restates c.column) :
    SameUpTo ResolveFailure.unattributed c.targetKey (t.targetKey fk) := by
  obtain rfl := hfirst.owner
  have hcolumns : fk.columns ≠ [] := by simp [h.columns]
  -- the local key is the column itself, so that only the foreign side is left to compare
  have htarget : c.owner.targetKey fk =
      Key.targetFor ⟨c.owner, [c]⟩ fk.target (c.owner.referrer fk.name) := by
    rw [targetKey, if_neg hcolumns]
    dsimp only
    rw [h.columns, keyOver_name hfirst]
    rfl
  have hlists : Key.ListsOne fk.target c.column.foreignColumn := h.foreignColumns
  rw [htarget, Key.targetFor_of_listsOne hlists, ColumnSlot.targetKey,
    Column.foreignKey?_of_foreignTable htable]
  dsimp only
  rw [Key.targetFor_of_listsOne (.inl rfl : Key.ListsOne _ c.column.foreignColumn)]
  have hsame : fk.target.schema = c.column.foreignSchema ∧
      fk.target.table = c.column.foreignTable := ⟨h.foreignSchema, h.foreignTable⟩
  rw [hsame.1, hsame.2]
  exact ((d.findTable_sameUpTo _ _ _ _ _).bind fun u => u.keyOver_sameUpTo ..).unresolved

/-- A foreign key of a table that can be followed has its local key, and leads to what its
names say for that. -/
theorem exists_reached_of_targetKey {t : TableSlot d} {fk : ForeignKey} {k : Key d}
    (h : t.targetKey fk = .ok k) : ∃ own, t.localKey fk.columns = .ok own ∧
      own.Lists t fk.columns ∧ own.Reached fk.target k := by
  obtain ⟨hcolumns, -⟩ := targetKey_eq_ok_iff.mp h
  obtain ⟨own, hown, hk⟩ :=
    exists_localKey_of_targetKeyOver ((t.targetKey_sameUpTo hcolumns).eq_ok_iff.mp h)
  exact ⟨own, hown, lists_of_keyOver hown, Key.reached_of_targetFor hk⟩

/-- **The ways agree.** A foreign key of a table leads to the same key, or fails for the same
reason, as one that is followed from the key over its local columns; and one of a column as
the same one written for the table. Whatever way a key is found, it is the one that is named:
on the table that is named, and column for column the nearest of the foreign name or, where
that is blank, of the local column's. -/
theorem foreignKeyPaths_agree (t : TableSlot d) :
    (∀ fk : ForeignKey, fk.columns ≠ [] →
      SameUpTo ResolveFailure.unattributed (t.targetKey fk) (t.targetKeyOver fk) ∧
      ∀ k, t.targetKey fk = .ok k → ∃ own, t.localKey fk.columns = .ok own ∧
        own.Lists t fk.columns ∧ own.Reached fk.target k) ∧
    (∀ (c : ColumnSlot d) (fk : ForeignKey), t.FirstNamed c.column.name c →
      c.column.foreignTable ≠ "" → fk.Restates c.column →
      SameUpTo ResolveFailure.unattributed c.targetKey (t.targetKey fk) ∧
      ∀ k, c.targetKey = .ok k → Key.Reached ⟨t, [c]⟩ fk.target k) ∧
    ∀ (own : Key d) (ref : KeyRef) (k : Key d), own.target ref = .ok k → own.Reached ref k := by
  refine ⟨fun fk hcolumns => ⟨t.targetKey_sameUpTo hcolumns, ?_⟩, ?_, ?_⟩
  · exact fun k hk => exists_reached_of_targetKey hk
  · intro c fk hfirst htable hfk
    have hsame := targetKey_column_sameUpTo hfirst htable hfk
    refine ⟨hsame, fun k hk => ?_⟩
    obtain ⟨own, hown, -, hreached⟩ := exists_reached_of_targetKey (hsame.eq_ok_iff.mp hk)
    rw [hfk.columns, localKey, keyOver_name hfirst, Except.ok.injEq] at hown
    exact hown ▸ hreached
  · exact fun own ref k hk => Key.reached_of_targetFor hk

/-- Orders that refer to items by two columns, of which items inherit the first one from
parts, and by one column as well. -/
def depot : Definition where
  schemas :=
    [{ name := "public"
       tables :=
        [{ name := "orders"
           columns :=
            [.typed "batch" "int", (Column.proxy "code").references "STOCK" "items" ""] }] },
     { name := "stock"
       tables :=
        [{ name := "parts", columns := [.typed "Code" "text"] },
         { name := "items", parentTable := "PARTS", columns := [.typed "lot" "int"] }] }]

namespace depot

/-- The table of the first schema. -/
def orders : TableSlot depot := ⟨⟨0, by decide⟩, ⟨0, by decide⟩⟩

/-- The column of the orders that has a foreign key. -/
def code : ColumnSlot depot := ⟨orders, ⟨1, by decide⟩⟩

/-- The foreign key over two columns, one of them left blank. -/
def ordered : ForeignKey :=
  { columns := ["CODE", "batch"], foreignSchema := "stock", foreignTable := "items",
    foreignColumns := ["", "lot"], name := "ordered" }

/-- The foreign key of the column. -/
def coded : ForeignKey :=
  { columns := ["code"], foreignSchema := "STOCK", foreignTable := "items", name := "coded" }

/-- A foreign key to a column that there is not. -/
def lost : ForeignKey := { ordered with foreignColumns := ["", "weight"], name := "lost" }

end depot

open depot in
theorem foreignKeyPaths_agree_depot :
    (ordered.columns ≠ [] ∧
      ∃ own k, orders.localKey ordered.columns = .ok own ∧ own.names = ["code", "batch"] ∧
        orders.targetKey ordered = .ok k ∧ k.names = ["Code", "lot"] ∧
        own.Reached ordered.target k) ∧
    (orders.FirstNamed code.column.name code ∧ code.column.foreignTable ≠ "" ∧
      coded.Restates code.column ∧
      SameUpTo ResolveFailure.unattributed code.targetKey (orders.targetKey coded)) ∧
    orders.targetKey lost =
      .error (.unresolved (.unknownColumn "public.orders (lost)" "stock" "items" "weight")) ∧
    orders.targetKeyOver lost =
      .error (.unresolved
        (.unknownColumn "public.orders(code, batch) (lost)" "stock" "items" "weight")) ∧
    SameUpTo ResolveFailure.unattributed (orders.targetKey lost) (orders.targetKeyOver lost) := by
  obtain ⟨htable, hcolumn, -⟩ := foreignKeyPaths_agree orders
  have hcolumns : ordered.columns ≠ [] := by decide
  have hfirst : orders.FirstNamed code.column.name code :=
    column?_eq_some_iff_firstNamed.mp (by decide +kernel)
  have hrestates : coded.Restates code.column := ⟨rfl, rfl, rfl, .inr ⟨rfl, rfl⟩⟩
  refine ⟨⟨hcolumns, ?_⟩, ⟨hfirst, by decide, hrestates, ?_⟩, ?_, ?_, ?_⟩
  · have heval : (orders.targetKey ordered).toOption.map Key.names = some ["Code", "lot"] := by
      decide +kernel
    obtain ⟨k, hk, hnames⟩ := Option.map_eq_some_iff.mp heval
    have hkey := eq_ok_of_toOption hk
    obtain ⟨own, hown, -, hreached⟩ := (htable ordered hcolumns).2 k hkey
    have hlocal : (orders.localKey ordered.columns).toOption.map Key.names =
        some ["code", "batch"] := by
      decide +kernel
    rw [hown] at hlocal
    exact ⟨own, k, hown, Option.some.inj hlocal, hkey, hnames, hreached⟩
  · exact (hcolumn code coded hfirst (by decide) hrestates).1
  · decide +kernel
  · decide +kernel
  · exact (htable lost (by decide)).1

end TableSlot

end LayeredSchema
