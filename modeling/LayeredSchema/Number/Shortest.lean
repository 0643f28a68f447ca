import LayeredSchema.Number.Binary

/-!
# Shortest decimals

`Binary.shortest` is the decimal with the fewest digits that has a binary number as its nearest
one, and of those the nearest; `Binary.text` writes that decimal out.

The search for it tries one digit, then two, and so on. A grid of decimals has two neighbours of a
number, and each is tested by reading it back with `nearest`. Seventeen digits always suffice.
-/

namespace LayeredSchema

/-- A number in decimal notation, `digits * 10 ^ exponent`. -/
structure Decimal where
  digits : Nat
  exponent : Int
deriving DecidableEq

namespace Decimal

/-- The binary number nearest to a decimal. -/
def binary (d : Decimal) : Binary :=
  let (p, q) := Binary.divPow 10 d.digits 1 (-d.exponent)
  Binary.nearest p q

/-- The decimal without the zeros at its end. -/
def trimmed (d : Decimal) : Decimal :=
  if d.digits ≠ 0 ∧ d.digits % 10 = 0 then trimmed ⟨d.digits / 10, d.exponent + 1⟩ else d
termination_by d.digits
decreasing_by omega

/-- The number written out: without an exponent as long as that takes at most sixteen digits before
the point, or at most four zeros behind it, and otherwise with an exponent. There is a digit on
either side of a point, and a number without an exponent has a point. -/
def text (d : Decimal) : String :=
  let digits := Nat.toDigits 10 d.digits
  let point : Int := digits.length + d.exponent
  if 0 < point ∧ point ≤ 16 then
    let whole := digits.take point.toNat
    let fraction := digits.drop point.toNat
    String.ofList (whole ++ List.replicate (point.toNat - whole.length) '0') ++ "." ++
      if fraction = [] then "0" else String.ofList fraction
  else if -5 < point ∧ point ≤ 0 then
    "0." ++ String.ofList (List.replicate (-point).toNat '0' ++ digits)
  else
    let fraction := digits.drop 1
    String.ofList (digits.take 1) ++
      (if fraction = [] then "" else "." ++ String.ofList fraction) ++
      "e" ++ (if point < 1 then "-" else "+") ++ toString (point - 1).natAbs

end Decimal

namespace Binary

/-- The least `e` for which `n / d` is below `10 ^ e`. -/
def magnitude (n d : Nat) : Int :=
  let rough : Int := (Nat.toDigits 10 n).length - (Nat.toDigits 10 d).length
  let (p, q) := divPow 10 n d rough
  if q ≤ p then rough + 1 else rough

/-- A decimal with so many digits that has the binary number as its nearest one: the nearest if
there are two, and of two that are equally near the one whose last digit is even. -/
def withDigits? (b : Binary) (count : Nat) : Option Decimal :=
  let (n, d) := divPow 2 b.significand 1 (-b.exponent)
  let e := magnitude n d - count
  let (p, q) := divPow 10 n d e
  let below : Decimal := ⟨p / q, e⟩
  let above : Decimal := ⟨p / q + 1, e⟩
  (if roundQuotient p q = p / q then [below, above] else [above, below]).find? fun candidate =>
    candidate.binary = b

/-- The decimal with the fewest digits that has the binary number as its nearest one. -/
def shortest (b : Binary) : Decimal :=
  if b.significand = 0 then ⟨0, 0⟩
  else (((List.range' 1 17).findSome? b.withDigits?).getD ⟨0, 0⟩).trimmed

/-- The number as documents show it. -/
def text (b : Binary) : String := b.shortest.text

end Binary

end LayeredSchema
