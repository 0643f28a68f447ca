/-!
# Tokens of a settings file

A settings file is TOML without arrays, dates, fractions and texts of several lines, so that
every line can be read by itself. A line is a sequence of tokens: *words*, quoted *texts* and
*marks*; blanks separate tokens, and a number sign begins a comment. `scan` reads a line
character by character, as an automaton whose `Mode` says what the next character continues.
-/

namespace LayeredSchema.Settings

/-- A token of a line. -/
inductive Token where
  /-- Characters that may stand in a key, a number or another bare value. -/
  | word (chars : List Char)
  /-- A text in quotes, with its escapes undone. -/
  | text (chars : List Char)
  | mark (char : Char)
deriving DecidableEq

/-- Whether a character may stand in a bare key. -/
def isKeyChar (c : Char) : Bool := c.isAlphanum || c == '_' || c == '-'

/-- Whether a character may stand in a word. -/
def isWordChar (c : Char) : Bool := isKeyChar c || c == '+'

/-- Whether a character may stand in a comment or a text: all but controls, of which the tab
is let pass. -/
def isPlain (c : Char) : Bool := c == '\t' || (' ' ≤ c && c != '\x7f')

/-- The characters that are tokens by themselves. -/
def marks : List Char := ['.', ',', '=', '\x7b', '\x7d', '[', ']']

/-- What a character after a backslash stands for. -/
def unescape : Char → Option Char
  | 'b' => some '\x08'
  | 't' => some '\t'
  | 'n' => some '\n'
  | 'f' => some '\x0c'
  | 'r' => some '\r'
  | '"' => some '"'
  | '\\' => some '\\'
  | _ => none

/-- The value of a hexadecimal digit. -/
def hexDigit (c : Char) : Option Nat :=
  if c.isDigit then some (c.toNat - '0'.toNat)
  else if 'a' ≤ c && c ≤ 'f' then some (c.toNat - 'a'.toNat + 10)
  else if 'A' ≤ c && c ≤ 'F' then some (c.toNat - 'A'.toNat + 10)
  else none

/-- What the next character continues. Characters of a token are held the last first. -/
inductive Mode where
  | between
  | word (chars : List Char)
  | comment
  /-- A text in single quotes, which knows no escapes. -/
  | literal (chars : List Char)
  | basic (chars : List Char)
  | escape (chars : List Char)
  /-- A code point that is still to be given so many hexadecimal digits. -/
  | code (chars : List Char) (left value : Nat)

/-- Takes a character that begins something new. -/
def begin (c : Char) : Option (Mode × List Token) :=
  if c == ' ' || c == '\t' then some (.between, [])
  else if c == '#' then some (.comment, [])
  else if c == '"' then some (.basic [], [])
  else if c == '\'' then some (.literal [], [])
  else if marks.contains c then some (.between, [.mark c])
  else if isWordChar c then some (.word [c], [])
  else none

/-- Takes one character, and gives the tokens that it completes. -/
def step (mode : Mode) (c : Char) : Option (Mode × List Token) :=
  match mode with
  | .between => begin c
  | .word chars =>
    if isWordChar c then some (.word (c :: chars), [])
    else (begin c).map fun (mode, tokens) => (mode, .word chars.reverse :: tokens)
  | .comment => if isPlain c then some (.comment, []) else none
  | .literal chars =>
    if c == '\'' then some (.between, [.text chars.reverse])
    else if isPlain c then some (.literal (c :: chars), [])
    else none
  | .basic chars =>
    if c == '"' then some (.between, [.text chars.reverse])
    else if c == '\\' then some (.escape chars, [])
    else if isPlain c then some (.basic (c :: chars), [])
    else none
  | .escape chars =>
    if c == 'u' then some (.code chars 4 0, [])
    else if c == 'U' then some (.code chars 8 0, [])
    else (unescape c).map fun plain => (.basic (plain :: chars), [])
  | .code chars left value => do
    let value := 16 * value + (← hexDigit c)
    if left = 1 then
      if value.isValidChar then some (.basic (Char.ofNat value :: chars), []) else none
    else some (.code chars (left - 1) value, [])

/-- The tokens that the end of a line completes. -/
def finish : Mode → Option (List Token)
  | .between | .comment => some []
  | .word chars => some [.word chars.reverse]
  | _ => none

/-- The tokens of a line from a mode on, unless some character is out of place. -/
def scanFrom (mode : Mode) : List Char → Option (List Token)
  | [] => finish mode
  | c :: rest => do
    let (mode, tokens) ← step mode c
    return tokens ++ (← scanFrom mode rest)

/-- The tokens of a line. -/
def scan (line : List Char) : Option (List Token) := scanFrom .between line

end LayeredSchema.Settings
