/-
**Floats as decimals.**

The fewest decimal digits that are read back as the same float: the first digit count from one to
seventeen at which a decimal of that many digits lies in the interval of numbers that round to the
float; of two such decimals the nearer one. With a fixed number of places the exact value is
rounded, a value half-way between two decimals going to the even one.

* `Decimal.shortest`: the digits and the power of ten;
* `NumberStyle`: where positional writing ends and how an exponent looks;
* `NumberStyle.write`: a float in a style; `plainStyle`, `jsonStyle` and `yamlStyle` are the
  styles of this library;
* `fixedPlaces`: a finite float with a number of digits after the point.
-/

import PromptMarkup.Decimal.Binary

namespace PromptMarkup.Decimal

/-- The number `digits * 10 ^ exponent`. -/
structure Numeral where
  digits : Nat
  exponent : Int
  deriving Repr, DecidableEq

/-- The digits of a natural number. -/
def digitChars (number : Nat) : List Char := Nat.toDigits 10 number

/-! ## The interval of a float -/

/-- The numbers that are read as one float lie between two bounds. -/
structure RoundingInterval where
  low : Fraction
  value : Fraction
  high : Fraction
  /-- The bounds themselves are read as the float. -/
  closed : Bool

/-- The interval around a float: half-way to its neighbours, the lower one being nearer below a
power of two. -/
def Binary.interval (number : Binary) : RoundingInterval :=
  let quarter := number.exponent - 2
  let nearBelow := number.mantissa = Nat.pow 2 fractionBits && number.exponent ≠ -1074
  { low := .scaled (4 * number.mantissa - if nearBelow then 1 else 2) 2 quarter
    value := .scaled (4 * number.mantissa) 2 quarter
    high := .scaled (4 * number.mantissa + 2) 2 quarter
    closed := number.mantissa % 2 = 0 }

/-- A number is read as the float of the interval. -/
def RoundingInterval.contains (interval : RoundingInterval) (number : Fraction) : Bool :=
  if interval.closed then !number.below interval.low && !interval.high.below number
  else interval.low.below number && number.below interval.high

/-! ## The shortest decimal -/

/-- The exponent of the first decimal digit of a quotient that is not zero and not below
`10 ^ -350`. -/
def leadingExponent (value : Fraction) : Int :=
  (digitChars (value.numerator * Nat.pow 10 350 / value.denominator)).length - 351

/-- The decimal on the grid of `10 ^ exponent` that is read as the float of the interval: of the
two neighbours of the value the one inside the interval, of two inside the nearer one. -/
def decimalOnGrid? (tie : Tie) (interval : RoundingInterval) (exponent : Int) : Option Nat :=
  let steps := interval.value.dividedBy (.scaled 1 10 exponent)
  let inside := fun count => interval.contains (.scaled count 10 exponent)
  match inside steps.whole, inside (steps.whole + 1) with
  | true, true => some (roundedQuotient tie steps)
  | true, false => some steps.whole
  | false, true => some (steps.whole + 1)
  | false, false => none

/-- A number without the zeros at its end, and their count. -/
def dropZeros : Nat → Nat → Nat × Nat
  | 0, number => (number, 0)
  | limit + 1, number =>
    if number ≠ 0 ∧ number % 10 = 0 then
      let (rest, count) := dropZeros limit (number / 10)
      (rest, count + 1)
    else (number, 0)

/-- The shortest decimal that is read back as a finite float other than zero. -/
def shortest (tie : Tie) (number : Float) : Numeral :=
  let interval := (Binary.ofFloat number).interval
  let top := leadingExponent interval.value
  let found := (List.range 17).findSome? fun (count : Nat) =>
    (decimalOnGrid? tie interval (top - count)).map fun digits => (digits, top - (count : Int))
  match found with
  | some (digits, exponent) =>
    let (digits, zeros) := dropZeros 20 digits
    ⟨digits, exponent + zeros⟩
  | none => ⟨0, 0⟩

/-! ## Writing -/

/-- How a finite float is written. -/
structure NumberStyle where
  /-- The exponents of the first digit at which the number is written without an exponent. -/
  positional : Int → Bool
  /-- A whole number gets the fraction `.0`. -/
  wholeFraction : Bool
  /-- An exponent that is not negative has a plus sign. -/
  plusSign : Bool
  /-- Which of two nearest decimals is taken. -/
  tie : Tie

/-- All digits are written out, and whole numbers have no fraction. -/
def plainStyle : NumberStyle := ⟨fun _ => true, false, false, .up⟩

/-- Numbers from a hundred-thousandth up to ten to the sixteenth are written out. -/
def jsonStyle : NumberStyle := ⟨fun top => -5 ≤ top && top < 16, true, true, .even⟩

/-- As `jsonStyle`, without plus signs. -/
def yamlStyle : NumberStyle := { jsonStyle with plusSign := false }

/-- The digits of a positive numeral with its point in place. -/
def positionalChars (wholeFraction : Bool) (numeral : Numeral) : List Char :=
  let digits := digitChars numeral.digits
  if 0 ≤ numeral.exponent then
    digits ++ List.replicate numeral.exponent.toNat '0'
      ++ if wholeFraction then ['.', '0'] else []
  else
    let places := (-numeral.exponent).toNat
    let padded := List.replicate (places + 1 - digits.length) '0' ++ digits
    padded.take (padded.length - places) ++ '.' :: padded.drop (padded.length - places)

/-- The digits of a positive numeral with its first digit in front of the point and an exponent. -/
def exponentialChars (plusSign : Bool) (numeral : Numeral) : List Char :=
  let digits := digitChars numeral.digits
  let top := numeral.exponent + (digits.length - 1 : Nat)
  let fraction := match digits.drop 1 with
    | [] => []
    | rest => '.' :: rest
  let sign := if top < 0 then ['-'] else if plusSign then ['+'] else []
  digits.take 1 ++ fraction ++ 'e' :: sign ++ digitChars top.natAbs

/-- A finite float in a style. -/
def NumberStyle.write (style : NumberStyle) (number : Float) : String :=
  let magnitude :=
    if (Binary.ofFloat number).mantissa = 0 then positionalChars style.wholeFraction ⟨0, 0⟩
    else
      let numeral := shortest style.tie number
      let top := numeral.exponent + ((digitChars numeral.digits).length - 1 : Nat)
      if style.positional top then positionalChars style.wholeFraction numeral
      else exponentialChars style.plusSign numeral
  String.ofList (if isNegative number then '-' :: magnitude else magnitude)

/-! ## A fixed number of places -/

/-- A finite float with `places` digits after the point. -/
def fixedPlaces (places : Nat) (number : Float) : String :=
  let binary := Binary.ofFloat number
  let value := Fraction.scaled binary.mantissa 2 binary.exponent
  let count := roundedQuotient .even (value.dividedBy (.scaled 1 10 (-places)))
  let magnitude := positionalChars false ⟨count, -places⟩
  String.ofList (if isNegative number then '-' :: magnitude else magnitude)

end PromptMarkup.Decimal
