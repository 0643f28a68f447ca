import LayeredSchema.Name
import LayeredSchema.Text.Blank

/-!
# Closed vocabularies

A field such as an index method takes one of a few fixed words. `Keyword` states such a
vocabulary: its members, the word that each is written as, further spellings that are read
but never written, and what blank text means. `read` is the only way from text to a member:
it ignores blanks around the word and the case of ASCII letters, and refuses every other text,
naming the vocabulary and the text as it was given.
-/

namespace LayeredSchema

/-- A vocabulary of fixed words. -/
class Keyword (α : Type) where
  /-- What the members are, as error texts call them. -/
  kind : String
  members : List α
  /-- The one word that a member is written as. -/
  word : α → String
  /-- Further spellings under which a member is read. -/
  aliases : α → List String := fun _ => []
  /-- The member that blank text stands for, where a vocabulary has one. -/
  blank : Option α := none

namespace Keyword

variable {α : Type} [Keyword α]

/-- A text that is no word of the vocabulary it was read for. -/
structure Unrecognised where
  kind : String
  text : String
deriving DecidableEq

/-- The sentence that reports an unrecognised word. -/
def Unrecognised.message (e : Unrecognised) : String :=
  s!"Invalid {e.kind} value: '{e.text}'"

/-- Whether a member is written or read as the word, up to the case of letters. -/
def spells (member : α) (text : String) : Bool :=
  (word member :: aliases member).any fun spelling => Name.same text spelling

/-- The member that a text stands for, if it stands for one. -/
def find? (text : String) : Option α :=
  let bare := Text.trim text
  if bare.isEmpty then blank else members.find? fun member => spells member bare

/-- Reads a text as a member of the vocabulary. -/
def read (text : String) : Except Unrecognised α :=
  match find? text with
  | some member => .ok member
  | none => .error ⟨kind α, text⟩

end Keyword

end LayeredSchema
