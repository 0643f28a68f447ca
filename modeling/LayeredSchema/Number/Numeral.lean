import LayeredSchema.Number.Binary

/-!
# Numerals

A `Numeral` is a number as documents write it: digits, perhaps a point with more digits, perhaps
an exponent. A numeral of digits alone stands for the integer that they make, as far as 64 bits
hold it. Every other numeral stands for a binary number, its `magnitude?`.

That number is found in two steps, each with a rounding of its own: the leading digits, as many as
64 bits hold, are taken as a binary number, which is then multiplied or divided by a power of ten.
So it may miss the nearest binary number by a little, and whoever writes it out again may see
another last digit than was read.
-/

namespace LayeredSchema

/-- A number as it is written. -/
structure Numeral where
  negative : Bool
  /-- The digits before the point. -/
  whole : List Nat
  /-- The digits after the point, none if there is no point. -/
  fraction : List Nat := []
  exponent : Option Int := none
deriving DecidableEq

namespace Numeral

/-- The largest power of ten that is a binary number. -/
def greatestPower : Nat := 308

/-- Reads on with digits for as long as the number that they make fits a word of 64 bits, and gives
the digits that are left over. -/
def leading (value : Nat) : List Nat → Nat × List Nat
  | [] => (value, [])
  | digit :: rest =>
    if 10 * value + digit < UInt64.size then leading (10 * value + digit) rest
    else (value, digit :: rest)

/-- A binary number divided by a power of ten. The power is taken in parts that are binary numbers
themselves, and the quotient rounded after each. -/
def shrink (b : Binary) (places : Nat) : Binary :=
  if places ≤ greatestPower then b.divide (Binary.powerOfTen places)
  else if b.significand = 0 then b
  else shrink (b.divide (Binary.powerOfTen greatestPower)) (places - greatestPower)
termination_by places
decreasing_by simp only [greatestPower] at *; omega

/-- A binary number multiplied by a power of ten, unless that makes it too large. -/
def scale? (b : Binary) (e : Int) : Option Binary :=
  if e < 0 then some (shrink b e.natAbs)
  else if b.significand = 0 then some b
  else if e.natAbs ≤ greatestPower then
    some (b.multiply (Binary.powerOfTen e.natAbs)) |>.filter Binary.isFinite
  else none

/-- The binary number that a numeral stands for, apart from its sign, unless it is too large. -/
def magnitude? (n : Numeral) : Option Binary :=
  let (value, skipped) := leading 0 n.whole
  let (value, unread) := leading value n.fraction
  let places : Int := n.fraction.length - unread.length
  scale? (Binary.nearest value 1) (n.exponent.getD 0 + skipped.length - places)

/-- The integer that a numeral stands for, if it is one of digits alone and 64 bits hold it, with a
sign or without one. Zero with a sign is no integer. -/
def integer? (n : Numeral) : Option Int :=
  match n.fraction, n.exponent, leading 0 n.whole with
  | [], none, (value, []) =>
    if !n.negative then some (Int.ofNat value)
    else if 0 < value ∧ -Int.ofNat value ≥ Int64.minValue.toInt then some (-Int.ofNat value)
    else none
  | _, _, _ => none

/-- The digits at the start of a text, and what follows them. -/
def digits (chars : List Char) : List Nat × List Char :=
  ((chars.takeWhile Char.isDigit).map fun c => c.toNat - '0'.toNat, chars.dropWhile Char.isDigit)

/-- An exponent without its mark. -/
def exponent? (chars : List Char) : Option Int :=
  let (sign, rest) := match chars with
    | '-' :: rest => (-1, rest)
    | '+' :: rest => (1, rest)
    | _ => ((1 : Int), chars)
  match digits rest with
  | ([], _) | (_, _ :: _) => none
  | (ds, []) => some (sign * Int.ofNat (ds.foldl (fun n d => 10 * n + d) 0))

/-- The numeral with what follows its digits before the point. -/
def withRest? (n : Numeral) : List Char → Option Numeral
  | [] => some n
  | 'e' :: rest | 'E' :: rest => do return { n with exponent := some (← exponent? rest) }
  | '.' :: rest =>
    match digits rest with
    | ([], _) => none
    | (fraction, []) => some { n with fraction := fraction }
    | (fraction, mark :: rest) =>
      if mark = 'e' ∨ mark = 'E' then do
        return { n with fraction := fraction, exponent := some (← exponent? rest) }
      else none
  | _ => none

/-- The numeral that a text is, if it is one. It has no needless zero in front, and a digit on
either side of its point. -/
def ofText? (text : String) : Option Numeral :=
  let (negative, chars) := match text.toList with
    | '-' :: rest => (true, rest)
    | chars => (false, chars)
  match digits chars with
  | ([], _) => none
  | (0 :: _ :: _, _) => none
  | (whole, rest) => withRest? { negative := negative, whole := whole } rest

end Numeral

end LayeredSchema
