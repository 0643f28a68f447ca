/-!
# Binary numbers

A number that no 64-bit integer holds is kept in binary, with 53 significant bits and an exponent
that has a least and a greatest value. Each operation is the exact one followed by one rounding
(`nearest`), so that all of it comes down to quotients of natural numbers.

A sign is kept apart from the number, for zero has one too.
-/

namespace LayeredSchema

/-- A binary number without a sign, `significand * 2 ^ exponent`. -/
structure Binary where
  significand : Nat
  exponent : Int
deriving DecidableEq

namespace Binary

/-- The least number that 53 bits do not hold. -/
def limit : Nat := Nat.pow 2 53

/-- The least exponent. A number that has it may do with fewer than 53 significant bits. -/
def leastExponent : Int := -1074

/-- The exponent of the largest numbers. -/
def greatestExponent : Int := 971

/-- The natural number nearest to `n / d`; a half goes to the even neighbour. -/
def roundQuotient (n d : Nat) : Nat :=
  if d < 2 * (n % d) ∨ (2 * (n % d) = d ∧ n / d % 2 = 1) then n / d + 1 else n / d

/-- The quotient `n / d / base ^ e`, as a numerator and a denominator. -/
def divPow (base n d : Nat) (e : Int) : Nat × Nat :=
  if 0 ≤ e then (n, d * Nat.pow base e.toNat) else (n * Nat.pow base (-e).toNat, d)

/-- The exponent under which `n / d` has 53 significant bits. -/
def fittingExponent (n d : Nat) : Int :=
  let least : Int := n.log2 - d.log2 - 53
  let (p, q) := divPow 2 n d least
  if p / q < limit then least else least + 1

/-- The binary number nearest to `n / d`, if its exponent may be as great as need be. -/
def nearest (n d : Nat) : Binary :=
  if n = 0 then ⟨0, leastExponent⟩
  else
    let fitting := fittingExponent n d
    let exponent := if fitting < leastExponent then leastExponent else fitting
    let (p, q) := divPow 2 n d exponent
    let significand := roundQuotient p q
    if significand = limit then ⟨significand / 2, exponent + 1⟩ else ⟨significand, exponent⟩

/-- Whether the exponent is within its bound. -/
def isFinite (b : Binary) : Bool := b.exponent ≤ greatestExponent

/-- The product, rounded. -/
def multiply (a b : Binary) : Binary :=
  let (n, d) := divPow 2 (a.significand * b.significand) 1 (-(a.exponent + b.exponent))
  nearest n d

/-- The quotient, rounded. -/
def divide (a b : Binary) : Binary :=
  let (n, d) := divPow 2 a.significand b.significand (b.exponent - a.exponent)
  nearest n d

/-- A power of ten, rounded. -/
def powerOfTen (e : Nat) : Binary := nearest (Nat.pow 10 e) 1

end Binary

end LayeredSchema
