import LayeredSchema.Encoding.Definition
import LayeredSchema.Proofs.Encoding.Faithful

/-!
# The documents of definitions

A definition is read back from the document that it is written as, and from every document
that can be reached from there by leaving out what its absence means and by adding what nobody
asks for (`Definition.decode_encode_loosened`). It takes no more than that every record lists
its fields in the order in which it is made of them, and each under a key of its own, and that
every vocabulary reads its own words.
-/

namespace LayeredSchema

open Relation (ReflTransGen)

/-! ## Vocabularies -/

instance : Legible Dialect where
  read_word member := by cases member <;> decide +kernel

instance : Legible IndexMethod where
  read_word member := by cases member <;> decide +kernel

instance : Legible ReferentialAction where
  read_word member := by cases member <;> decide +kernel

instance : Legible Direction where
  read_word member := by cases member <;> decide +kernel

instance : Legible TypeKind where
  read_word member := by cases member <;> decide +kernel

instance : Legible ConstraintKind where
  read_word member := by cases member <;> decide +kernel

instance : Legible TriggerTiming where
  read_word member := by cases member <;> decide +kernel

instance : Legible TriggerLevel where
  read_word member := by cases member <;> decide +kernel

instance : Legible Stage where
  read_word member := by cases member <;> decide +kernel

/-! ## Records -/

instance : Definite Grant := .record fun _ => rfl

instance : Definite KeyRef := .record fun _ => rfl

instance : Definite StorageOption := .record fun _ => rfl

instance : Definite Hooks := .record fun _ => rfl

instance : Definite Column := .record fun _ => rfl

instance : Definite ForeignKey := .record fun _ => rfl

instance : Definite Index.Dimension := .record fun _ => rfl

instance : Definite Index.Condition := .record fun _ => rfl

instance : Definite Index := .record fun _ => rfl

instance : Definite Constraint := .record fun _ => rfl

instance : Definite Row := .record fun _ => rfl

instance : Definite RowBlock := .record fun _ => rfl

instance : Definite Table := .record fun _ => rfl

instance : Definite Sequence := .record fun _ => rfl

instance : Definite Routine.Parameter := .record fun _ => rfl

instance : Definite Routine.Body := .record fun _ => rfl

instance : Definite Routine := .record fun _ => rfl

instance : Definite Trigger := .record fun _ => rfl

instance : Definite View.Query := .record fun _ => rfl

instance : Definite View := .record fun _ => rfl

instance : Definite UserType.Field := .record fun _ => rfl

instance : Definite UserType.Base := .record fun _ => rfl

instance : Definite UserType.Check := .record fun _ => rfl

instance : Definite UserType := .record fun _ => rfl

instance : Definite Schema := .record fun _ => rfl

instance : Definite Roles := .record fun _ => rfl

instance : Definite Setting := .record fun _ => rfl

instance : Definite Database := .record fun _ => rfl

instance : Definite Language := .record fun _ => rfl

instance : Definite Snippet := .record fun _ => rfl

instance : Definite Definition := .record fun _ => rfl

/-! ## Definitions -/

namespace Definition

/-- **Documents lose nothing.** A definition is read from its document, and from any that can be
reached from it by dropping fields that hold what their absence means, anywhere in it, and by
adding undeclared ones. All nine vocabularies read the words that they write. -/
theorem decode_encode_loosened :
    (∀ d : Definition, decode (encode d) = .ok d) ∧
    (∀ (d : Definition) (x : Datum),
      ReflTransGen (Loosens (Coded.shape Definition)) (encode d) x → decode x = .ok d) ∧
    Legible Dialect ∧ Legible IndexMethod ∧ Legible ReferentialAction ∧ Legible Direction ∧
    Legible TypeKind ∧ Legible ConstraintKind ∧ Legible TriggerTiming ∧ Legible TriggerLevel ∧
    Legible Stage := by
  refine ⟨Faithful.decode_encode, fun d x hx => ?_, ?_⟩
  · exact Faithful.decode_of_looser (Faithful.decode_encode d) hx
  · exact ⟨inferInstance, inferInstance, inferInstance, inferInstance, inferInstance,
      inferInstance, inferInstance, inferInstance, inferInstance⟩

/-- A definition with a type of which the base may be null. -/
def tariff : Definition where
  schemas :=
    [{ name := "public"
       types := [{ name := "amount", kind := .domain, base := some { type := "numeric" } }] }]

/-- The document of the tariff around that of the base, without the database and the owner of
the schema, of which there is none. -/
def tariffDocument (base : Datum) : Datum := .record
  [("schemas", .list [.record
    [("name", .text "public"), ("description", .text ""), ("tables", .list []),
      ("types", .list [.record
        [("name", .text "amount"), ("kind", .text "domain"), ("enum_values", .list []),
          ("composite_fields", .list []), ("domain_type", base),
          ("domain_constraints", .list [])]]),
      ("sequences", .list []), ("functions", .list []), ("triggers", .list []),
      ("views", .list []), ("grants", .list [])]]),
    ("languages", .list []), ("sql", .list [])]

/-- A base that does not say that it may be null, but what its unit is. -/
def tariffBase : Datum := .record
  [("unit", .text "euro"), ("base_type", .text "numeric"), ("default", .null)]

theorem loosens_tariffDocument {x y : Datum} (h : Loosens (Coded.shape UserType.Base) x y) :
    Loosens (Coded.shape Definition) (tariffDocument x) (tariffDocument y) :=
  (.field (i := 0) (List.mem_of_getElem? (i := 1) rfl) rfl (.item (i := 0) rfl
    (.field (i := 3) (List.mem_of_getElem? (i := 4) rfl) rfl (.item (i := 0) rfl
      (.field (i := 4) (List.mem_of_getElem? (i := 4) rfl) rfl h)))) :
    Loosens (Coded.shape Definition) (tariffDocument x) _)

theorem loosens_tariff : ReflTransGen (Loosens (Coded.shape Definition)) (encode tariff)
    (tariffDocument tariffBase) := by
  -- the database goes, and the owner of the schema
  refine .head (.drop (i := 0) (List.mem_of_getElem? (i := 0) rfl) rfl rfl (by decide +kernel)) ?_
  refine .head (.field (i := 0) (List.mem_of_getElem? (i := 1) rfl) rfl (.item (i := 0) rfl
    (.drop (i := 1) (List.mem_of_getElem? (i := 1) rfl) rfl rfl (by decide +kernel)))) ?_
  -- whether the base may be null goes, and its unit comes
  have hdrop : Loosens (Coded.shape UserType.Base) (encode { type := "numeric" : UserType.Base })
      (.record [("base_type", .text "numeric"), ("default", .null)]) :=
    .drop (i := 2) (List.mem_of_getElem? (i := 2) rfl) rfl rfl (by decide +kernel)
  have hadd : Loosens (Coded.shape UserType.Base)
      (.record [("base_type", .text "numeric"), ("default", .null)]) tariffBase :=
    .add (i := 0) (by decide +kernel)
  exact .head (loosens_tariffDocument hdrop) (.single (loosens_tariffDocument hadd))

theorem decode_encode_loosened_tariff :
    decode (encode tariff) = .ok tariff ∧
    ReflTransGen (Loosens (Coded.shape Definition)) (encode tariff)
      (tariffDocument tariffBase) ∧
    decode (tariffDocument tariffBase) = .ok tariff := by
  obtain ⟨hread, hloose, -⟩ := decode_encode_loosened
  exact ⟨hread tariff, loosens_tariff, hloose tariff _ loosens_tariff⟩

end Definition

end LayeredSchema
