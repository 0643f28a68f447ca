import LayeredSchema.Settings
import LayeredSchema.Settings.Section
import LayeredSchema.Settings.Token

/-!
# Settings files

`Settings.text` is how settings are written to a file, `Settings.ofText` how they are read from
one. A file may leave out any setting, and may hold more than is known here; what it must not
do is break the rules of its notation, or give a setting a value of the wrong sort.
-/

namespace LayeredSchema

namespace Settings

/-- The key that a token stands for, if it may be one. -/
def simpleKey? : Token → Option String
  | .word chars => if chars.all isKeyChar then some (String.ofList chars) else none
  | .text chars => some (String.ofList chars)
  | .mark _ => none

/-- Simple keys with points between them at the start of some tokens: the path, the last key, and
what follows. -/
def keyParts? : List Token → Option (List String × String × List Token)
  | [] => none
  | token :: .mark '.' :: rest => do
    let name ← simpleKey? token
    let (path, key, rest) ← keyParts? rest
    return (name :: path, key, rest)
  | token :: rest => do return ([], ← simpleKey? token, rest)

/-- How many parts a dotted key may have, and how many inline sections may lie in each other. -/
def depthLimit : Nat := 79

/-- A dotted key at the start of some tokens: the path, the key itself, and what follows. -/
def dottedKey? (tokens : List Token) : Option (List String × String × List Token) :=
  (keyParts? tokens).filter fun (path, _, _) => path.length < depthLimit

/-- The number that some digits make in a base. An underscore may stand between two digits. -/
def digits? (base : Nat) (value : Nat) (afterDigit : Bool) : List Char → Option Nat
  | [] => if afterDigit then some value else none
  | c :: rest =>
    if c == '_' then if afterDigit then digits? base value false rest else none
    else do
      let digit ← hexDigit c
      if digit < base then digits? base (base * value + digit) true rest else none

/-- A number in decimal notation, which has no needless zero in front. -/
def decimal? (chars : List Char) : Option Nat :=
  if chars.head? = some '0' ∧ chars ≠ ['0'] then none else digits? 10 0 false chars

/-- A number in any notation. Only decimal ones have a sign. -/
def number? : List Char → Option Int
  | '0' :: 'x' :: rest => (digits? 16 0 false rest).map Int.ofNat
  | '0' :: 'o' :: rest => (digits? 8 0 false rest).map Int.ofNat
  | '0' :: 'b' :: rest => (digits? 2 0 false rest).map Int.ofNat
  | '+' :: rest => (decimal? rest).map Int.ofNat
  | '-' :: rest => (decimal? rest).map fun n => -Int.ofNat n
  | chars => (decimal? chars).map Int.ofNat

/-- The value that a word stands for. -/
def wordValue? (chars : List Char) : Option Datum :=
  if chars = ['t', 'r', 'u', 'e'] then some (.flag true)
  else if chars = ['f', 'a', 'l', 's', 'e'] then some (.flag false)
  else do
    let n ← number? chars
    if Datum.fitsWord n then some (.integer n) else none

mutual

/-- The value at the start of some tokens, and what follows. As many inline sections may be opened
in each other as `depth` says; `fuel` bounds the number of values. -/
def value? : (fuel depth : Nat) → List Token → Option (Datum × List Token)
  | _, _, .text chars :: rest => some (.text (String.ofList chars), rest)
  | _, _, .word chars :: rest => do return (← wordValue? chars, rest)
  | _, _ + 1, .mark '\x7b' :: .mark '\x7d' :: rest => some (.record [], rest)
  | fuel + 1, depth + 1, .mark '\x7b' :: rest => pairs? fuel depth [] rest
  | _, _, _ => none

/-- The record that the pairs at the start of some tokens complete. -/
def pairs? : (fuel depth : Nat) → Branches → List Token → Option (Datum × List Token)
  | 0, _, _, _ => none
  | fuel + 1, depth, branches, tokens => do
    let (path, key, rest) ← dottedKey? tokens
    match rest with
    | .mark '=' :: rest =>
      let (datum, rest) ← value? fuel depth rest
      let branches ← Tree.put datum key path branches
      match rest with
      | .mark ',' :: rest => pairs? fuel depth branches rest
      | .mark '\x7d' :: rest => some (.record (Tree.data branches), rest)
      | _ => none
    | _ => none

end

/-- What has been read of a file: all of its sections, and the one that is open. -/
structure Reading where
  root : Branches := []
  opened : List String := []

/-- Reads on with the tokens of one line. -/
def readTokens (reading : Reading) : List Token → Option Reading
  | [] => some reading
  | .mark '[' :: tokens => do
    let (path, key, rest) ← dottedKey? tokens
    if rest = [.mark ']'] then
      let opened := path ++ [key]
      return { root := ← Tree.openSection opened reading.root, opened := opened }
    else none
  | tokens => do
    let (path, key, rest) ← dottedKey? tokens
    match rest with
    | .mark '=' :: rest =>
      let (datum, rest) ← value? rest.length depthLimit rest
      if rest = [] then
        let root ← Tree.within (Tree.put datum key path) reading.opened reading.root
        return { reading with root := root }
      else none
    | _ => none

/-- The lines of a text. A line ends with a line feed, before which there may be a carriage
return. -/
def lines : List Char → List (List Char)
  | [] => [[]]
  | '\r' :: '\n' :: rest => [] :: lines rest
  | '\n' :: rest => [] :: lines rest
  | c :: rest =>
    match lines rest with
    | [] => [[c]]
    | line :: more => (c :: line) :: more

/-- Reads lines, the first of which has the given number; an error is the number of the line
that breaks the rules. -/
def readLines (reading : Reading) (number : Nat) : List (List Char) → Except Nat Reading
  | [] => .ok reading
  | line :: rest =>
    match (scan line).bind (readTokens reading) with
    | some next => readLines next (number + 1) rest
    | none => .error number

/-- A text without the byte order mark that some editors put in front. -/
def withoutMark : List Char → List Char
  | '\uFEFF' :: rest => rest
  | chars => chars

/-- What a settings file says, as data. -/
def dataOfText (text : String) : Except Nat Datum := do
  let reading ← readLines {} 1 (lines (withoutMark text.toList))
  return .record (Tree.data reading.root)

end Settings

/-- Why settings could not be loaded or saved. -/
inductive SettingsError where
  /-- The file could not be read or written. -/
  | file (detail : String)
  /-- A line of the file breaks the rules of the notation. -/
  | malformed (line : Nat)
  /-- A setting has a value of the wrong sort. -/
  | unfit (fault : Fault)

namespace SettingsError

/-- The sort of an error, in words. -/
def heading : SettingsError → String
  | file _ => "IO error"
  | malformed _ => "Parse error"
  | unfit _ => "Parse error"

/-- The error in words. -/
def message (e : SettingsError) : String :=
  e.heading ++ ": " ++
    match e with
    | file detail => detail
    | malformed line => s!"line {line} is malformed"
    | unfit fault => fault.message

end SettingsError

namespace Settings

/-- The settings that a file's text holds. -/
def ofText (text : String) : Except SettingsError Settings := do
  let datum ← (dataOfText text).mapError .malformed
  (decode datum).mapError .unfit

/-- The text of a flag. -/
def flagText (b : Bool) : String := if b then "true" else "false"

/-- The settings as the text of a file. -/
def text (s : Settings) : String :=
  "[composite]\nvalidate_each_overlay = " ++ flagText s.assembly.validateEachLayer ++ "\n" ++
    (match s.assembly.defaultDialect with
      | some dialect => "default_format = \"" ++ Keyword.word dialect ++ "\"\n"
      | none => "") ++
    "\n[ordering]\nallow_self_references = " ++ flagText s.order.allowSelfReferences ++ "\n"

/-- Loads settings, given what reading the file came to. -/
def load (contents : Except String String) : Except SettingsError Settings := do
  ofText (← contents.mapError .file)

/-- Saves settings, given how the file is written. -/
def save (write : String → Except String Unit) (s : Settings) : Except SettingsError Unit :=
  (write s.text).mapError .file

end Settings

end LayeredSchema
