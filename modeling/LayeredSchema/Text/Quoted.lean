import LayeredSchema.Text.Unseen

/-!
# Quoted text

How a text is shown between double quotes inside a message: the quote and the backslash are
escaped, the usual control characters have their letter, and every other character that does not
show by itself is written as its code point in hexadecimal.
-/

namespace LayeredSchema.Text

/-- The characters that stand for one character between quotes. -/
def escape (c : Char) : List Char :=
  match c with
  | '"' => ['\\', '"']
  | '\\' => ['\\', '\\']
  | '\t' => ['\\', 't']
  | '\n' => ['\\', 'n']
  | '\r' => ['\\', 'r']
  | '\x00' => ['\\', '0']
  | _ =>
    if isUnseen c then ['\\', 'u', '\x7b'] ++ Nat.toDigits 16 c.toNat ++ ['\x7d']
    else [c]

/-- A text between double quotes. -/
def quoted (s : String) : String :=
  String.ofList ('"' :: (s.toList.flatMap escape ++ ['"']))

end LayeredSchema.Text
