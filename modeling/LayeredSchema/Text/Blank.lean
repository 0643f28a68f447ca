import LayeredSchema.Text.Range

/-!
# Blank characters

`isBlank` is the white-space property of a character, over all of Unicode, and `trim` cuts
blank characters from both ends of a text. A blank inside a text is never touched: words
are told apart elsewhere.
-/

namespace LayeredSchema.Text

/-- The code points of white space, in ascending order. -/
def blankRanges : List (Nat × Nat) :=
  [(0x09, 0x0D), (0x20, 0x20), (0x85, 0x85), (0xA0, 0xA0), (0x1680, 0x1680), (0x2000, 0x200A),
   (0x2028, 0x2029), (0x202F, 0x202F), (0x205F, 0x205F), (0x3000, 0x3000)]

/-- Whether a character is white space. -/
def isBlank (c : Char) : Bool := inRanges blankRanges c

/-- A text without the blanks at its two ends. -/
def trim (s : String) : String :=
  String.ofList ((s.toList.dropWhile isBlank).reverse.dropWhile isBlank).reverse

/-- Whether two texts agree once the blanks around them are cut: blanks around a piece of SQL
never change what it does. -/
def sameTrimmed (a b : String) : Bool := trim a == trim b

theorem sameTrimmed_iff {a b : String} : sameTrimmed a b = true ↔ trim a = trim b := by
  simp [sameTrimmed]

end LayeredSchema.Text
