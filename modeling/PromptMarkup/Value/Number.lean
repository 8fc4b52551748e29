/-
**Numbers of expressions.**

Expressions know one kind of number, the float.

* `numberText`: the text of a number, without a fraction for whole numbers;
* `isWhole`, `toInt`, `toCount`: whole numbers, numbers without their fraction, and numbers used as
  counts;
* `remainder`: what is left of an exact division.
-/

import PromptMarkup.Decimal.Shortest
import PromptMarkup.Decimal.Reader
import PromptMarkup.Text.Blank

namespace PromptMarkup.Number

open Decimal

/-- A finite number without a fraction. -/
def isWhole (number : Float) : Bool :=
  match number.toModel.unpack with
  | .zero _ => true
  | .finite _ mantissa exponent _ => mantissa % Nat.pow 2 (-exponent).toNat = 0
  | _ => false

/-- A number cut to a natural number: zero for negative ones and for the value that is no number,
the greatest count for those that are too large. -/
def toCount (number : Float) : Nat := number.toUInt64.toNat

/-- A number without its fraction, zero for what is not finite. -/
def toInt (number : Float) : Int :=
  match number.toModel.unpack with
  | .finite sign mantissa exponent _ =>
    sign.apply (mantissa * Nat.pow 2 exponent.toNat / Nat.pow 2 (-exponent).toNat : Nat)
  | _ => 0

/-- The text of a number that is not finite. -/
def nameOfNonFinite (number : Float) : String :=
  if number.isNaN then "NaN" else if 0 < number then "Infinity" else "-Infinity"

/-- The text of a number: whole numbers below ten to the sixteenth have no sign for zero, all
others are written with their shortest digits. -/
def numberText (number : Float) : String :=
  if !number.isFinite then nameOfNonFinite number
  else if isWhole number && number.abs < 1e16 then toString (toInt number)
  else plainStyle.write number

/-- A number with that many digits after the point. -/
def fixedText (places : Nat) (number : Float) : String :=
  if number.isNaN then "NaN"
  else if number.isInf then (if 0 < number then "inf" else "-inf")
  else fixedPlaces places number

/-- What is left when a number is divided by another one a whole number of times; it has the sign
of the first. The division is exact. -/
def remainder (first second : Float) : Float :=
  if first.isNaN || second.isNaN || first.isInf || second == 0.0 then notANumber
  else if second.isInf || first == 0.0 then first
  else
    let left := Binary.ofFloat first
    let right := Binary.ofFloat second
    let scale := min left.exponent right.exponent
    let dividend := left.mantissa * Nat.pow 2 (left.exponent - scale).toNat
    let divisor := right.mantissa * Nat.pow 2 (right.exponent - scale).toNat
    let magnitude := (Float.ofNat (dividend % divisor)).scaleB scale
    if isNegative first then -magnitude else magnitude

/-- The number that a text denotes: nothing but blanks is zero, and text that is no number is the
value that is none. -/
def ofText (text : String) : Float :=
  let chars := Text.trim text.toList
  if chars.isEmpty then 0.0 else (readFloat? chars).getD notANumber

end PromptMarkup.Number
