import LayeredSchema.Datum.Basic

/-!
# Reading and writing data

`Coded α` is how values of `α` are written as data and read back. A record type gets its
instance from one list of fields (`Fields`) that serves both ways: each field has a key, a way
to get its value out of the record, and, unless the key must be there, the value that a record
without the key has. Unknown keys are ignored. What the list declares is kept as a `Shape`,
which says what a document of the type may leave out.

When several fields of a record are faulty one fault is reported: of the entries that are
there, the one with the least key; if those are all sound, the first missing field in the
order of the list.
-/

namespace LayeredSchema

/-- A declared field: its key, the datum it is written as where it has the value that leaving it
out means, if it may be left out, and the shape of what is under the key. -/
structure FieldShape (σ : Type) where
  key : String
  absent : Option Datum
  shape : σ

/-- What is declared of the data that values of a type are written as. -/
inductive Shape where
  /-- Data in which no field is declared. -/
  | plain
  | list (item : Shape)
  | record (fields : List (FieldShape Shape))

/-- A type whose values are written as data and read from data. -/
class Coded (α : Type) where
  shape : Shape := .plain
  encode : α → Datum
  decode : Datum → Except Fault α

export Coded (encode decode)

instance : Coded String where
  encode := .text
  decode
    | .text s => .ok s
    | found => .error (.mismatch found .text)

instance : Coded Bool where
  encode := .flag
  decode
    | .flag b => .ok b
    | found => .error (.mismatch found .flag)

instance : Coded Int64 where
  encode n := .integer n.toInt
  decode
    | .integer n =>
      if Datum.fitsWord n then .ok (Int64.ofInt n) else .error (.tooLarge n)
    | found => .error (.mismatch found .integer)

instance {α : Type} [Keyword α] : Coded α where
  encode member := .text (Keyword.word member)
  decode
    | .text s => (Keyword.read s).mapError .unrecognised
    | found => .error (.mismatch found .text)

instance {α : Type} [Coded α] : Coded (List α) where
  shape := .list (Coded.shape α)
  encode items := .list (items.map encode)
  decode
    | .list items => items.mapM decode
    | found => .error (.mismatch found .list)

/-- An absent value is written as null. -/
instance {α : Type} [Coded α] : Coded (Option α) where
  shape := Coded.shape α
  encode
    | some a => encode a
    | none => .null
  decode
    | .null => .ok none
    | found => (decode found).map some

/-- Why the fields of a record could not be read. -/
inductive Trouble where
  /-- The entry under a key is faulty. -/
  | faulty (key : String) (cause : Fault)
  /-- The record has no entry under a key that must be there. -/
  | missing (key : String)

namespace Trouble

/-- Which of two troubles is reported; the second comes from a later field. -/
def first : Trouble → Trouble → Trouble
  | faulty k f, faulty l g => if l < k then faulty l g else faulty k f
  | faulty k f, missing _ => faulty k f
  | missing _, faulty l g => faulty l g
  | missing k, missing _ => missing k

/-- The fault that a trouble amounts to. -/
def fault : Trouble → Fault
  | faulty _ cause => cause
  | missing key => .missing key

end Trouble

/-- The entries of a record, by key. -/
abbrev Entries := List (String × Datum)

/-- A list of fields: how a `σ` is written as entries, and how an `α` is read from some. -/
structure Fields (σ α : Type) where
  shape : List (FieldShape Shape)
  write : σ → Entries
  read : Entries → Except Trouble α

namespace Fields

variable {σ α β : Type}

/-- No fields: nothing to write, and `a` is what is read. -/
def start (a : α) : Fields σ α where
  shape := []
  write _ := []
  read _ := .ok a

/-- Reads on with one more field, reporting the first trouble of both. -/
def apply : Except Trouble (β → α) → Except Trouble β → Except Trouble α
  | .ok f, .ok b => .ok (f b)
  | .ok _, .error t => .error t
  | .error t, .ok _ => .error t
  | .error t, .error u => .error (t.first u)

/-- The value of a field, or `absent` if there is no entry under its key. -/
def value [Coded β] (entries : Entries) (key : String) (absent : Except Trouble β) :
    Except Trouble β :=
  match entries.lookup key with
  | some datum => (decode datum).mapError (.faulty key)
  | none => absent

/-- One more field, which must be there. -/
def required [Coded β] (fields : Fields σ (β → α)) (key : String) (get : σ → β) :
    Fields σ α where
  shape := fields.shape ++ [⟨key, none, Coded.shape β⟩]
  write s := fields.write s ++ [(key, encode (get s))]
  read entries := apply (fields.read entries) (value entries key (.error (.missing key)))

/-- One more field, which means `absent` where it is left out; it is always written. -/
def optional [Coded β] (fields : Fields σ (β → α)) (key : String) (absent : β) (get : σ → β) :
    Fields σ α where
  shape := fields.shape ++ [⟨key, some (encode absent), Coded.shape β⟩]
  write s := fields.write s ++ [(key, encode (get s))]
  read entries := apply (fields.read entries) (value entries key (.ok absent))

/-- One more field, which is written only where it has a value. -/
def sparse [Coded β] (fields : Fields σ (Option β → α)) (key : String) (get : σ → Option β) :
    Fields σ α where
  shape := fields.shape ++ [⟨key, some .null, Coded.shape β⟩]
  write s := fields.write s ++ ((get s).map fun b => (key, encode b)).toList
  read entries := apply (fields.read entries) (value entries key (.ok none))

end Fields

/-- How a record type is coded by its fields; `name` is what messages call it. -/
@[reducible] def Coded.record {α : Type} (name : String) (fields : Fields α α) : Coded α where
  shape := .record fields.shape
  encode a := .record (fields.write a)
  decode
    | .record entries => (fields.read entries).mapError Trouble.fault
    | found => .error (.mismatch found (.record name))

end LayeredSchema
