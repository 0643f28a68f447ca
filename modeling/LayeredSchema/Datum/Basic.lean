import LayeredSchema.Keyword
import LayeredSchema.Number.Numeral
import LayeredSchema.Number.Shortest
import LayeredSchema.Text.Quoted

/-!
# Documents as data

A `Datum` is a document as any notation for structured data would hold it: what is read from a
document before it is known to declare anything. `Fault` says why a datum does not declare
what was asked of it, and `Fault.message` puts that into words.
-/

namespace LayeredSchema

/-- Structured data. A record is a list of named entries, no two under one name. -/
inductive Datum where
  | null
  | flag (value : Bool)
  | integer (value : Int)
  /-- A number written with a fraction or an exponent, or one too large for 64 bits. -/
  | binary (negative : Bool) (magnitude : Binary)
  | text (value : String)
  | list (items : List Datum)
  | record (entries : List (String × Datum))

instance : Inhabited Datum := ⟨.null⟩

namespace Datum

/-- Whether a number fits a signed word of 64 bits. -/
def fitsWord (n : Int) : Bool := Int64.minValue.toInt ≤ n && n ≤ Int64.maxValue.toInt

/-- The number that a numeral stands for, unless it is too large for any. -/
def ofNumeral? (n : Numeral) : Option Datum :=
  match n.integer? with
  | some value => some (.integer value)
  | none => n.magnitude?.map (.binary n.negative)

/-- The datum as messages call it: scalars by their value, the others by their sort. -/
def describe : Datum → String
  | null => "null"
  | flag true => "boolean `true`"
  | flag false => "boolean `false`"
  | integer n => "integer `" ++ toString n ++ "`"
  | binary negative magnitude =>
    "floating point `" ++ (if negative then "-" else "") ++ magnitude.text ++ "`"
  | text s => "string " ++ Text.quoted s
  | list _ => "sequence"
  | record _ => "map"

end Datum

/-- The sorts of data that a field can ask for. -/
inductive Expected where
  | text
  | flag
  | integer
  | list
  | record (name : String)

/-- The sort of data as messages call it. -/
def Expected.describe : Expected → String
  | text => "a string"
  | flag => "a boolean"
  | integer => "i64"
  | list => "a sequence"
  | record name => "struct " ++ name

/-- Why a datum does not declare what was asked of it. -/
inductive Fault where
  /-- A record lacks a field that must be there. -/
  | missing (field : String)
  /-- The datum is of another sort. -/
  | mismatch (found : Datum) (expected : Expected)
  /-- The number does not fit a signed word of 64 bits. -/
  | tooLarge (value : Int)
  /-- The text is no word of the vocabulary that it is read for. -/
  | unrecognised (cause : Keyword.Unrecognised)

/-- The fault in words. -/
def Fault.message : Fault → String
  | missing field => "missing field `" ++ field ++ "`"
  | mismatch found expected =>
    "invalid type: " ++ found.describe ++ ", expected " ++ expected.describe
  | tooLarge value =>
    "invalid value: integer `" ++ toString value ++ "`, expected " ++ Expected.integer.describe
  | unrecognised cause => cause.message

end LayeredSchema
