import LayeredSchema.Assembly
import LayeredSchema.Proofs.Traversal
import LayeredSchema.Proofs.Validation.Rules

/-!
# Assembly and the stack

`Definition.assemble` lays documents over each other one by one and stops where
validation fails. Here it is compared with `Definition.stack`, which lays all of
them and never stops: what `assemble` validates after the document at some
position is the stack of the documents up to it (`stackTo`), so that it refuses
documents for the first position at which that stack is invalid
(`FirstInvalid`), or for the last one if only the whole stack is validated.
`assemble_iff_stack` says so for both ways to validate.

The loop is `layChecked`. It starts from what the documents before came to, and
its two outcomes are `layChecked_eq_ok_iff` and `layChecked_eq_error_iff`, by
induction on the documents that are left.
-/

namespace LayeredSchema

namespace Definition

variable {d base r : Definition} {layers documents : List Definition} {index : Nat}
  {e : AssemblyError}

/-! ## One validation -/

theorem checked_of_valid (hvalid : d.violations = []) : checked index d = .ok d := by
  rw [checked, validate_eq_ok_iff_nil.mpr hvalid]

theorem checked_of_invalid (hinvalid : d.violations ≠ []) :
    checked index d = .error (.invalid index d.violations) := by
  rw [checked, validate, if_neg (by simpa using hinvalid)]

theorem checked_eq_ok_iff : checked index d = .ok r ↔ d.violations = [] ∧ r = d := by
  constructor
  · intro h
    by_cases hvalid : d.violations = []
    · rw [checked_of_valid hvalid] at h
      cases h
      exact ⟨hvalid, rfl⟩
    · rw [checked_of_invalid hvalid] at h
      cases h
  · rintro ⟨hvalid, rfl⟩
    exact checked_of_valid hvalid

theorem checked_eq_error_iff : checked index d = .error e ↔
    d.violations ≠ [] ∧ e = .invalid index d.violations := by
  constructor
  · intro h
    by_cases hvalid : d.violations = []
    · rw [checked_of_valid hvalid] at h
      cases h
    · rw [checked_of_invalid hvalid] at h
      cases h
      exact ⟨hvalid, rfl⟩
  · rintro ⟨hinvalid, rfl⟩
    exact checked_of_invalid hinvalid

/-! ## Layer after layer -/

/-- The layers were all laid, and what they came to was valid after each. -/
theorem layChecked_eq_ok_iff : layChecked index base layers = .ok r ↔
    (∀ n < layers.length, ((layers.take (n + 1)).foldl Overlay.overlay base).violations = []) ∧
      r = layers.foldl Overlay.overlay base := by
  induction layers generalizing index base with
  | nil =>
    simp only [layChecked, Except.ok.injEq, List.length_nil, Nat.not_lt_zero, false_implies,
      implies_true, true_and, List.foldl_nil]
    exact eq_comm
  | cons layer rest ih =>
    rw [layChecked, bind_eq_ok_iff]
    simp only [checked_eq_ok_iff, ih, List.length_cons, List.take_succ_cons, List.foldl_cons]
    constructor
    · rintro ⟨next, ⟨hnext, rfl⟩, hrest, hr⟩
      refine ⟨fun n hn => ?_, hr⟩
      cases n with
      | zero => exact hnext
      | succ n => exact hrest n (Nat.lt_of_succ_lt_succ hn)
    · rintro ⟨hall, hr⟩
      exact ⟨_, ⟨hall 0 (Nat.zero_lt_succ _), rfl⟩,
        fun n hn => hall (n + 1) (Nat.succ_lt_succ hn), hr⟩

/-- Some layer was the first to make the result invalid. -/
theorem layChecked_eq_error_iff : layChecked index base layers = .error e ↔
    ∃ n < layers.length, ((layers.take (n + 1)).foldl Overlay.overlay base).violations ≠ [] ∧
      (∀ m < n, ((layers.take (m + 1)).foldl Overlay.overlay base).violations = []) ∧
      e = .invalid (index + n) ((layers.take (n + 1)).foldl Overlay.overlay base).violations := by
  induction layers generalizing index base with
  | nil => simp [layChecked]
  | cons layer rest ih =>
    rw [layChecked, bind_eq_error_iff]
    simp only [checked_eq_ok_iff, checked_eq_error_iff, ih, List.length_cons,
      List.take_succ_cons, List.foldl_cons]
    constructor
    · rintro (⟨hinvalid, he⟩ | ⟨next, ⟨hnext, rfl⟩, n, hn, hinvalid, hbefore, he⟩)
      · exact ⟨0, Nat.zero_lt_succ _, hinvalid, fun m hm => absurd hm (Nat.not_lt_zero m), he⟩
      · refine ⟨n + 1, Nat.succ_lt_succ hn, hinvalid, fun m hm => ?_, ?_⟩
        · cases m with
          | zero => exact hnext
          | succ m => exact hbefore m (Nat.lt_of_succ_lt_succ hm)
        · rw [he, Nat.add_assoc, Nat.add_comm 1 n]
    · rintro ⟨n, hn, hinvalid, hbefore, he⟩
      cases n with
      | zero => exact .inl ⟨hinvalid, he⟩
      | succ n =>
        refine .inr ⟨_, ⟨hbefore 0 (Nat.zero_lt_succ _), rfl⟩, n, Nat.lt_of_succ_lt_succ hn,
          hinvalid, fun m hm => hbefore (m + 1) (Nat.succ_lt_succ hm), ?_⟩
        rw [he, Nat.add_assoc, Nat.add_comm 1 n]

/-! ## The stack up to a document -/

/-- What the documents up to the one at a position come to. -/
def stackTo (documents : List Definition) (i : Nat) : Definition := stack (documents.take (i + 1))

/-- The document at a position is the first with which the stack is invalid. -/
structure FirstInvalid (documents : List Definition) (i : Nat) : Prop where
  lt : i < documents.length
  invalid : (stackTo documents i).violations ≠ []
  before : ∀ j < i, (stackTo documents j).violations = []

theorem stackTo_last : stackTo documents (documents.length - 1) = stack documents := by
  unfold stackTo
  rw [List.take_of_length_le (by omega)]

/-- Validation after every document, that of the base included. -/
theorem checked_layChecked_eq_ok_iff :
    (checked 0 base >>= fun base => layChecked 1 base layers) = .ok r ↔
      (∀ i < (base :: layers).length, (stackTo (base :: layers) i).violations = []) ∧
        r = stack (base :: layers) := by
  rw [bind_eq_ok_iff]
  simp only [checked_eq_ok_iff, layChecked_eq_ok_iff]
  constructor
  · rintro ⟨_, ⟨hbase, rfl⟩, hlayers, hr⟩
    refine ⟨fun i hi => ?_, hr⟩
    cases i with
    | zero => exact hbase
    | succ n => exact hlayers n (Nat.lt_of_succ_lt_succ hi)
  · rintro ⟨hall, hr⟩
    exact ⟨base, ⟨hall 0 (Nat.zero_lt_succ _), rfl⟩,
      fun n hn => hall (n + 1) (Nat.succ_lt_succ hn), hr⟩

theorem checked_layChecked_eq_error_iff :
    (checked 0 base >>= fun base => layChecked 1 base layers) = .error e ↔
      ∃ i, FirstInvalid (base :: layers) i ∧
        e = .invalid i (stackTo (base :: layers) i).violations := by
  rw [bind_eq_error_iff]
  simp only [checked_eq_ok_iff, checked_eq_error_iff, layChecked_eq_error_iff]
  constructor
  · rintro (⟨hinvalid, he⟩ | ⟨_, ⟨hbase, rfl⟩, n, hn, hinvalid, hbefore, he⟩)
    · exact ⟨0, ⟨Nat.zero_lt_succ _, hinvalid, fun j hj => absurd hj (Nat.not_lt_zero j)⟩, he⟩
    · refine ⟨n + 1, ⟨Nat.succ_lt_succ hn, hinvalid, fun j hj => ?_⟩, ?_⟩
      · cases j with
        | zero => exact hbase
        | succ m => exact hbefore m (Nat.lt_of_succ_lt_succ hj)
      · rw [he, Nat.add_comm 1 n]
        rfl
  · rintro ⟨i, ⟨hi, hinvalid, hbefore⟩, he⟩
    cases i with
    | zero => exact .inl ⟨hinvalid, he⟩
    | succ n =>
      refine .inr ⟨base, ⟨hbefore 0 (Nat.zero_lt_succ _), rfl⟩, n, Nat.lt_of_succ_lt_succ hi,
        hinvalid, fun m hm => hbefore (m + 1) (Nat.succ_lt_succ hm), ?_⟩
      rw [he, Nat.add_comm 1 n]
      rfl

/-! ## The dialect at the end -/

/-- The definition with nothing changed but that it declares a dialect to fall back on, if
there is one and it declared none. -/
structure Defaulted (fallback : Option Dialect) (d r : Definition) : Prop where
  dialect : r.dialect = d.dialect.or fallback
  schemas : r.schemas = d.schemas
  languages : r.languages = d.languages
  snippets : r.snippets = d.snippets
  roles : (r.database.getD {}).roles = (d.database.getD {}).roles
  settings : (r.database.getD {}).settings = (d.database.getD {}).settings
  unchanged : d.dialect ≠ none ∨ fallback = none → r = d

theorem defaulted_withDefaultDialect (fallback : Option Dialect) (d : Definition) :
    Defaulted fallback d (d.withDefaultDialect fallback) := by
  cases hdialect : d.dialect with
  | some dialect =>
    have hsame : d.withDefaultDialect fallback = d := by
      unfold withDefaultDialect
      rw [hdialect]
    rw [hsame]
    exact ⟨by rw [hdialect, Option.some_or], rfl, rfl, rfl, rfl, rfl, fun _ => rfl⟩
  | none =>
    cases fallback with
    | none =>
      have hsame : d.withDefaultDialect none = d := by
        unfold withDefaultDialect
        rw [hdialect]
      rw [hsame]
      exact ⟨by rw [hdialect, Option.none_or], rfl, rfl, rfl, rfl, rfl, fun _ => rfl⟩
    | some dialect =>
      have hset : d.withDefaultDialect (some dialect) =
          { d with database := some { d.database.getD {} with dialect := some dialect } } := by
        unfold withDefaultDialect
        rw [hdialect]
      rw [hset]
      exact ⟨by rw [hdialect, Option.none_or]; rfl, rfl, rfl, rfl, rfl, rfl, by simp [hdialect]⟩

/-- Validation does not look at the database. -/
theorem violations_withDefaultDialect (fallback : Option Dialect) (d : Definition) :
    (d.withDefaultDialect fallback).violations = d.violations := by
  obtain ⟨-, hschemas, hlanguages, -⟩ := defaulted_withDefaultDialect fallback d
  unfold violations
  rw [hschemas, hlanguages]

/-! ## The whole -/

/-- What has to be valid for documents to be assembled. -/
def Passes (options : AssemblyOptions) (documents : List Definition) : Prop :=
  if options.validateEachLayer then
    ∀ i < documents.length, (stackTo documents i).violations = []
  else (stack documents).violations = []

/-- If every stage of the stack is valid then so is the last. -/
theorem Passes.stack {options : AssemblyOptions} (hne : documents ≠ [])
    (h : Passes options documents) : (stack documents).violations = [] := by
  unfold Passes at h
  split at h
  next =>
    have hpos := List.length_pos_iff.mpr hne
    rw [← stackTo_last]
    exact h _ (by omega)
  next => exact h

theorem assemble_cons (options : AssemblyOptions) :
    assemble options (base :: layers) =
      ((if options.validateEachLayer then
          checked 0 base >>= fun base => layChecked 1 base layers
        else checked layers.length (stack (base :: layers))) >>= fun result =>
          .ok (result.withDefaultDialect options.defaultDialect)) := by
  unfold assemble
  cases options.validateEachLayer with
  | true =>
    simp only [if_true, bind_assoc]
    rfl
  | false => rfl

theorem assemble_eq_ok_iff {options : AssemblyOptions} :
    assemble options documents = .ok r ↔ documents ≠ [] ∧ Passes options documents ∧
      r = (stack documents).withDefaultDialect options.defaultDialect := by
  cases documents with
  | nil => simp [assemble]
  | cons base layers =>
    rw [assemble_cons, bind_eq_ok_iff, Passes]
    cases options.validateEachLayer with
    | true =>
      simp only [if_true, checked_layChecked_eq_ok_iff, Except.ok.injEq]
      constructor
      · rintro ⟨_, ⟨hall, rfl⟩, rfl⟩
        exact ⟨List.cons_ne_nil _ _, hall, rfl⟩
      · rintro ⟨-, hall, rfl⟩
        exact ⟨_, ⟨hall, rfl⟩, rfl⟩
    | false =>
      simp only [Bool.false_eq_true, if_false, checked_eq_ok_iff, Except.ok.injEq]
      constructor
      · rintro ⟨_, ⟨hvalid, rfl⟩, rfl⟩
        exact ⟨List.cons_ne_nil _ _, hvalid, rfl⟩
      · rintro ⟨-, hvalid, rfl⟩
        exact ⟨_, ⟨hvalid, rfl⟩, rfl⟩

theorem assemble_eq_error_iff_of_each {options : AssemblyOptions}
    (heach : options.validateEachLayer = true) (hne : documents ≠ []) :
    assemble options documents = .error e ↔ ∃ i, FirstInvalid documents i ∧
      e = .invalid i (stackTo documents i).violations := by
  obtain ⟨base, layers, rfl⟩ := List.exists_cons_of_ne_nil hne
  rw [assemble_cons, if_pos heach, bind_eq_error_iff, checked_layChecked_eq_error_iff]
  simp

theorem assemble_eq_error_iff_of_last {options : AssemblyOptions}
    (hlast : options.validateEachLayer = false) (hne : documents ≠ []) :
    assemble options documents = .error e ↔ (stack documents).violations ≠ [] ∧
      e = .invalid (documents.length - 1) (stack documents).violations := by
  obtain ⟨base, layers, rfl⟩ := List.exists_cons_of_ne_nil hne
  rw [assemble_cons, if_neg (by simp [hlast]), bind_eq_error_iff, checked_eq_error_iff]
  simp

/-- **Assembly agrees with the stack and its prefixes.** There is nothing to assemble
only if there are no documents. With every layer validated, documents are refused for
the first of them with which the stack is invalid, and with all violations that it then
has; otherwise for the last one, if the whole stack is invalid. What is not refused
comes to the stack, but for the dialect to fall back on. So validating every layer only
ever refuses more, and whatever is assembled is valid. -/
theorem assemble_iff_stack (options : AssemblyOptions) (documents : List Definition) :
    (assemble options documents = .error .noDocuments ↔ documents = []) ∧
    (options.validateEachLayer = true → ∀ i violations,
      assemble options documents = .error (.invalid i violations) ↔
        FirstInvalid documents i ∧ violations = (stackTo documents i).violations) ∧
    (options.validateEachLayer = false → ∀ i violations,
      assemble options documents = .error (.invalid i violations) ↔
        documents ≠ [] ∧ (stack documents).violations ≠ [] ∧ i = documents.length - 1 ∧
          violations = (stack documents).violations) ∧
    ((∃ r, assemble options documents = .ok r) ↔
      documents ≠ [] ∧ Passes options documents) ∧
    (∀ r, assemble options documents = .ok r →
      Defaulted options.defaultDialect (stack documents) r ∧ r.validate = .ok ()) ∧
    ∀ r, assemble { options with validateEachLayer := true } documents = .ok r →
      assemble { options with validateEachLayer := false } documents = .ok r := by
  refine ⟨?_, fun heach i violations => ?_, fun hlast i violations => ?_, ?_, fun r hr => ?_,
    fun r hr => ?_⟩
  · by_cases hne : documents = []
    · simp [hne, assemble]
    · cases hoption : options.validateEachLayer with
      | true => simp [assemble_eq_error_iff_of_each hoption hne, hne]
      | false => simp [assemble_eq_error_iff_of_last hoption hne, hne]
  · by_cases hne : documents = []
    · subst hne
      constructor
      · intro h
        cases h
      · intro h
        exact absurd h.1.lt (Nat.not_lt_zero i)
    · rw [assemble_eq_error_iff_of_each heach hne]
      constructor
      · rintro ⟨j, hj, he⟩
        cases he
        exact ⟨hj, rfl⟩
      · rintro ⟨hi, rfl⟩
        exact ⟨i, hi, rfl⟩
  · by_cases hne : documents = []
    · simp [hne, assemble]
    · rw [assemble_eq_error_iff_of_last hlast hne, AssemblyError.invalid.injEq]
      simp [hne]
  · simp only [assemble_eq_ok_iff]
    exact ⟨fun ⟨_, hne, hpasses, _⟩ => ⟨hne, hpasses⟩, fun ⟨hne, hpasses⟩ => ⟨_, hne, hpasses, rfl⟩⟩
  · obtain ⟨hne, hpasses, rfl⟩ := assemble_eq_ok_iff.mp hr
    refine ⟨defaulted_withDefaultDialect _ _, ?_⟩
    rw [validate_eq_ok_iff_nil, violations_withDefaultDialect]
    exact hpasses.stack hne
  · obtain ⟨hne, hpasses, hr⟩ := assemble_eq_ok_iff.mp hr
    exact assemble_eq_ok_iff.mpr ⟨hne, hpasses.stack hne, hr⟩

/-- A document, one that repeats a table of it with a proxy that leads nowhere, and one
that mends the proxy. -/
def detour : List Definition :=
  [{ schemas := [{ name := "app", tables := [{ name := "users" }] }] },
   { schemas :=
      [{ name := "App"
         tables := [{ name := "Users", columns := [(Column.proxy "boss").references "" "" "id"] }] }] },
   { schemas :=
      [{ name := "APP"
         tables :=
          [{ name := "USERS", columns := [(Column.proxy "Boss").references "" "users" "id"] }] }] }]

theorem assemble_iff_stack_detour :
    (∃ violations, assemble { defaultDialect := some .mysql5 } detour =
      .error (.invalid 1 violations) ∧ violations.map Violation.code =
        [.columnForeignKeyIncomplete]) ∧
    ∃ r, assemble { validateEachLayer := false, defaultDialect := some .mysql5 } detour = .ok r ∧
      r.dialect = some .mysql5 ∧ r.schemas = (stack detour).schemas ∧ r.validate = .ok () := by
  constructor
  · have hfirst : FirstInvalid detour 1 := by
      refine ⟨by decide, by decide +kernel, fun j hj => ?_⟩
      obtain rfl : j = 0 := by omega
      decide +kernel
    obtain ⟨-, heach, -⟩ := assemble_iff_stack { defaultDialect := some .mysql5 } detour
    exact ⟨_, (heach rfl 1 _).mpr ⟨hfirst, rfl⟩, by decide +kernel⟩
  · obtain ⟨-, -, -, hpasses, hok, -⟩ := assemble_iff_stack
      { validateEachLayer := false, defaultDialect := some .mysql5 } detour
    have hvalid : (stack detour).violations = [] := by decide +kernel
    obtain ⟨r, hr⟩ := hpasses.mpr ⟨List.cons_ne_nil _ _, hvalid⟩
    obtain ⟨hdefaulted, hvalidate⟩ := hok r hr
    have hnone : (stack detour).dialect = none := by decide +kernel
    refine ⟨r, hr, ?_, hdefaulted.schemas, hvalidate⟩
    rw [hdefaulted.dialect, hnone]
    rfl

end Definition

end LayeredSchema
