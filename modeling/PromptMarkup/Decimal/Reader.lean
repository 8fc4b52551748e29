/-
**Reading decimals.**

A decimal text denotes the float nearest to it.

* `nearestFloat`: the float nearest to `digits * 10 ^ exponent`;
* `readDecimal?`: digits with an optional point and an optional exponent;
* `readFloat?`: a number text, which may also be a sign with the name of an infinity or of the
  value that is no number.
-/

namespace PromptMarkup.Decimal

/-- The value of some decimal digits. -/
def digitsValue (digits : List Char) : Nat :=
  digits.foldl (fun value digit => value * 10 + (digit.toNat - '0'.toNat)) 0

/-- The positive infinity. -/
def infinity : Float := 1.0 / 0.0

/-- The value that is no number. -/
def notANumber : Float := 0.0 / 0.0

/-- The float nearest to `digits * 10 ^ exponent`, infinite when it is too large. -/
def nearestFloat (digits : Nat) (exponent : Int) : Float :=
  let top := ((Nat.toDigits 10 digits).length : Int) + exponent
  if digits = 0 ∨ top < -400 then 0.0
  else if 400 < top then infinity
  else if 0 ≤ exponent then Float.ofScientific digits false exponent.toNat
  else Float.ofScientific digits true (-exponent).toNat

/-- A sign in front of some text, and the text after it. -/
def cutSign : List Char → Bool × List Char
  | '-' :: rest => (true, rest)
  | '+' :: rest => (false, rest)
  | chars => (false, chars)

/-- The exponent that some text after `e` consists of. -/
def readExponent? (chars : List Char) : Option Int :=
  let (negative, digits) := cutSign chars
  if !digits.isEmpty && digits.all Char.isDigit then
    some (if negative then -(digitsValue digits : Int) else digitsValue digits)
  else none

/-- The exponent that the text after the digits of a number gives; none when it is not one. -/
def exponentAfter? : List Char → Option Int
  | [] => some 0
  | mark :: rest => if mark = 'e' ∨ mark = 'E' then readExponent? rest else none

/-- The float that digits with an optional point and an optional exponent denote. -/
def readDecimal? (chars : List Char) : Option Float :=
  let whole := chars.takeWhile Char.isDigit
  let afterWhole := chars.dropWhile Char.isDigit
  let (fraction, rest) := match afterWhole with
    | '.' :: tail => (tail.takeWhile Char.isDigit, tail.dropWhile Char.isDigit)
    | _ => ([], afterWhole)
  if whole.isEmpty && fraction.isEmpty then none
  else (exponentAfter? rest).map fun exponent =>
    nearestFloat (digitsValue (whole ++ fraction)) (exponent - (fraction.length : Int))

/-- The float that a text denotes: an optional sign, then a decimal, `inf`, `infinity` or `nan` in
letters of either case. -/
def readFloat? (chars : List Char) : Option Float :=
  let (negative, rest) := cutSign chars
  let name := rest.map Char.toLower
  let magnitude :=
    if name = "inf".toList ∨ name = "infinity".toList then some infinity
    else if name = "nan".toList then some notANumber
    else readDecimal? rest
  magnitude.map fun number => if negative then -number else number

end PromptMarkup.Decimal
