/-
**Floats as exact fractions.**

A finite float is a whole number times a power of two. Everything that is written or rounded in
decimal is computed from that exact value in natural numbers.

* `Binary.ofFloat`: the whole number and the power of two of a finite float;
* `Fraction`: a quotient of natural numbers, and its comparison with another one;
* `roundedQuotient`: a quotient rounded to the nearest whole number.
-/

namespace PromptMarkup.Decimal

/-- The magnitude `mantissa * 2 ^ exponent` of a finite float. -/
structure Binary where
  mantissa : Nat
  exponent : Int
  deriving Repr, DecidableEq

/-- The number of bits of the fraction of a float. -/
def fractionBits : Nat := 52

/-- The magnitude of a finite float. -/
def Binary.ofFloat (number : Float) : Binary :=
  let bits := number.toBits.toNat
  let field := bits / Nat.pow 2 fractionBits % 2048
  let fraction := bits % Nat.pow 2 fractionBits
  if field = 0 then ⟨fraction, -1074⟩ else ⟨fraction + Nat.pow 2 fractionBits, (field : Int) - 1075⟩

/-- The sign bit of a float is set. -/
def isNegative (number : Float) : Bool := number.toBits.toNat / Nat.pow 2 63 = 1

/-- A quotient of natural numbers. -/
structure Fraction where
  numerator : Nat
  denominator : Nat
  deriving Repr, DecidableEq

namespace Fraction

/-- `whole * base ^ exponent` as a quotient. -/
def scaled (whole base : Nat) (exponent : Int) : Fraction :=
  if 0 ≤ exponent then ⟨whole * Nat.pow base exponent.toNat, 1⟩
  else ⟨whole, Nat.pow base (-exponent).toNat⟩

/-- A quotient is below another one. -/
def below (first second : Fraction) : Bool :=
  first.numerator * second.denominator < second.numerator * first.denominator

/-- A quotient divided by another one. -/
def dividedBy (first second : Fraction) : Fraction :=
  ⟨first.numerator * second.denominator, first.denominator * second.numerator⟩

/-- The whole part of a quotient. -/
def whole (fraction : Fraction) : Nat := fraction.numerator / fraction.denominator

end Fraction

/-- Which of two whole numbers a value exactly between them is rounded to. -/
inductive Tie where
  /-- The larger one. -/
  | up
  /-- The even one. -/
  | even
  deriving DecidableEq, Repr

/-- The whole number nearest to a quotient. -/
def roundedQuotient (tie : Tie) (fraction : Fraction) : Nat :=
  let floor := fraction.whole
  let twice := 2 * (fraction.numerator % fraction.denominator)
  if twice < fraction.denominator then floor
  else if twice = fraction.denominator && tie = .even && floor % 2 = 0 then floor
  else floor + 1

end PromptMarkup.Decimal
