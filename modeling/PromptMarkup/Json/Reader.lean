/-
**Reading JSON.**

The reader accepts the standard and nothing else: four blanks, no zeros in front of a number, no
comma behind the last item, no half of a surrogate pair, and containers nested at most
`depthLimit` deep.

* `Json.read?`: the value that a text denotes;
* `readString?`: a string behind its opening quote;
* `readNumber?`: a number; a whole one stays whole while it fits sixty-four bits.
-/

import PromptMarkup.Json.Basic
import PromptMarkup.Decimal.Reader

namespace PromptMarkup.Json

/-- The greatest number of arrays and objects inside one another. -/
def depthLimit : Nat := 127

/-- The text behind any blanks. -/
def skipBlanks (chars : List Char) : List Char :=
  chars.dropWhile fun char => char = ' ' || char = '\t' || char = '\n' || char = '\r'

/-! ## Strings -/

/-- The value of a hexadecimal digit. -/
def hexValue? (char : Char) : Option Nat :=
  if '0' ≤ char ∧ char ≤ '9' then some (char.toNat - '0'.toNat)
  else if 'a' ≤ char ∧ char ≤ 'f' then some (char.toNat - 'a'.toNat + 10)
  else if 'A' ≤ char ∧ char ≤ 'F' then some (char.toNat - 'A'.toNat + 10)
  else none

/-- The value of four hexadecimal digits. -/
def unitValue? (first second third fourth : Char) : Option Nat := do
  return (← hexValue? first) * 4096 + (← hexValue? second) * 256
    + (← hexValue? third) * 16 + (← hexValue? fourth)

/-- The character that a single letter behind a backslash stands for. -/
def shortEscape? : Char → Option Char
  | '"' => some '"'
  | '\\' => some '\\'
  | '/' => some '/'
  | 'b' => some '\x08'
  | 'f' => some '\x0c'
  | 'n' => some '\n'
  | 'r' => some '\r'
  | 't' => some '\t'
  | _ => none

/-- The characters of a string up to its closing quote, and the text behind it. -/
def readString? : List Char → Option (List Char × List Char)
  | [] => none
  | '"' :: rest => some ([], rest)
  | '\\' :: 'u' :: a :: b :: c :: d :: '\\' :: 'u' :: e :: f :: g :: h :: rest => do
    let high ← unitValue? a b c d
    if 0xD800 ≤ high ∧ high < 0xDC00 then
      let low ← unitValue? e f g h
      guard (0xDC00 ≤ low ∧ low < 0xE000)
      let (text, rest) ← readString? rest
      return (Char.ofNat (0x10000 + (high - 0xD800) * 0x400 + (low - 0xDC00)) :: text, rest)
    else
      guard (high < 0xD800 ∨ 0xE000 ≤ high)
      let (text, rest) ← readString? ('\\' :: 'u' :: e :: f :: g :: h :: rest)
      return (Char.ofNat high :: text, rest)
  | '\\' :: 'u' :: a :: b :: c :: d :: rest => do
    let unit ← unitValue? a b c d
    guard (unit < 0xD800 ∨ 0xE000 ≤ unit)
    let (text, rest) ← readString? rest
    return (Char.ofNat unit :: text, rest)
  | '\\' :: letter :: rest => do
    let char ← shortEscape? letter
    let (text, rest) ← readString? rest
    return (char :: text, rest)
  | char :: rest => do
    guard (0x20 ≤ char.toNat ∧ char ≠ '\\')
    let (text, rest) ← readString? rest
    return (char :: text, rest)

/-! ## Numbers -/

/-- The greatest whole number that the digits of a number are gathered into. -/
def digitLimit : Nat := Nat.pow 2 64 - 1

/-- The digits in front that fit `digitLimit`, added to `value`, and the number of digits taken. -/
def gatherDigits (value : Nat) : List Char → Nat × Nat
  | [] => (value, 0)
  | digit :: rest =>
    let next := value * 10 + (digit.toNat - '0'.toNat)
    if digitLimit < next then (value, 0)
    else
      let (total, count) := gatherDigits next rest
      (total, count + 1)

/-- A float scaled by a power of ten, one multiplication or division for each `308` places; none
when the result is infinite. -/
def scaleFloat? (number : Float) (exponent : Int) : Nat → Option Float
  | 0 => some number
  | fuel + 1 =>
    if exponent.natAbs ≤ 308 then
      let power := Decimal.nearestFloat 1 exponent.natAbs
      let scaled := if 0 ≤ exponent then number * power else number / power
      if scaled.isInf then none else some scaled
    else if number == 0.0 then some number
    else if 0 ≤ exponent then none
    else scaleFloat? (number / 1e308) (exponent + 308) fuel

/-- The float of some digits and an exponent, with its sign. -/
def scaledNumber? (negative : Bool) (digits : Nat) (exponent : Int) : Option Json := do
  let magnitude ← scaleFloat? (Float.ofNat digits) exponent (exponent.natAbs / 308 + 2)
  return float (if negative then -magnitude else magnitude)

/-- The greatest exponent that is told apart from larger ones. -/
def exponentLimit : Nat := Nat.pow 2 31 - 1

/-- The number with the given digits, the exponent written behind `e` still to be read. -/
def readExponent? (negative : Bool) (digits : Nat) (exponent : Int) (chars : List Char) :
    Option (Json × List Char) := do
  let (below, rest) := Decimal.cutSign chars
  let written := rest.takeWhile Char.isDigit
  guard (!written.isEmpty)
  let rest := rest.dropWhile Char.isDigit
  let size := Decimal.digitsValue written
  if exponentLimit < size then
    guard (below || digits = 0)
    return (float (if negative then -0.0 else 0.0), rest)
  else
    let total := if below then exponent - (size : Int) else exponent + size
    return (← scaledNumber? negative digits total, rest)

/-- A number from its first digit on. -/
def readNumber? (negative : Bool) (chars : List Char) : Option (Json × List Char) := do
  let whole := chars.takeWhile Char.isDigit
  let rest := chars.dropWhile Char.isDigit
  guard (!whole.isEmpty && (whole.length = 1 || whole.head? ≠ some '0'))
  let (digits, taken) := gatherDigits 0 whole
  let dropped : Int := whole.length - taken
  match rest with
  | '.' :: tail =>
    let fraction := tail.takeWhile Char.isDigit
    let rest := tail.dropWhile Char.isDigit
    guard (!fraction.isEmpty)
    let (digits, places) := gatherDigits digits fraction
    let exponent := dropped - (places : Int)
    match rest with
    | 'e' :: tail | 'E' :: tail => readExponent? negative digits exponent tail
    | _ => return (← scaledNumber? negative digits exponent, rest)
  | 'e' :: tail | 'E' :: tail => readExponent? negative digits dropped tail
  | _ =>
    if dropped ≠ 0 then return (← scaledNumber? negative digits dropped, rest)
    else if !negative then return (integer digits, rest)
    else if digits = 0 ∨ Nat.pow 2 63 < digits then return (float (-(Float.ofNat digits)), rest)
    else return (integer (-(digits : Int)), rest)

/-! ## Values -/

/-- A value without parts. -/
def readScalar? : List Char → Option (Json × List Char)
  | 'n' :: 'u' :: 'l' :: 'l' :: rest => some (null, rest)
  | 't' :: 'r' :: 'u' :: 'e' :: rest => some (bool true, rest)
  | 'f' :: 'a' :: 'l' :: 's' :: 'e' :: rest => some (bool false, rest)
  | '"' :: rest => (readString? rest).map fun (text, rest) => (string (String.ofList text), rest)
  | '-' :: rest => readNumber? true rest
  | chars => readNumber? false chars

/-- Items up to the closing bracket with commas between them; there are at most as many as `fuel`,
for which the number of characters is enough. -/
def readItems? {α : Type} (item : List Char → Option (α × List Char)) (closing : Char) :
    Nat → List Char → Option (List α × List Char)
  | 0, _ => none
  | fuel + 1, chars => do
    let (first, rest) ← item (skipBlanks chars)
    match skipBlanks rest with
    | ',' :: rest =>
      let (others, rest) ← readItems? item closing fuel rest
      return (first :: others, rest)
    | char :: rest => if char = closing then some ([first], rest) else none
    | [] => none

/-- A list of items behind its opening bracket, which may be empty. -/
def readList? {α : Type} (item : List Char → Option (α × List Char)) (closing : Char)
    (chars : List Char) : Option (List α × List Char) :=
  match skipBlanks chars with
  | [] => none
  | char :: rest =>
    if char = closing then some ([], rest) else readItems? item closing rest.length (char :: rest)

/-- A field of an object. -/
def readField? (value : List Char → Option (Json × List Char)) (chars : List Char) :
    Option ((String × Json) × List Char) :=
  match chars with
  | '"' :: rest => do
    let (key, rest) ← readString? rest
    match skipBlanks rest with
    | ':' :: rest =>
      let (value, rest) ← value (skipBlanks rest)
      return ((String.ofList key, value), rest)
    | _ => none
  | _ => none

/-- A value that starts here and whose containers nest at most `depth` deep. -/
def readValue? : Nat → List Char → Option (Json × List Char)
  | 0, chars => readScalar? chars
  | depth + 1, '[' :: rest =>
    (readList? (readValue? depth) ']' rest).map fun (items, rest) => (array items, rest)
  | depth + 1, '\x7b' :: rest =>
    (readList? (readField? (readValue? depth)) '\x7d' rest).map fun (fields, rest) =>
      (object (Fields.insertAll [] fields), rest)
  | _ + 1, chars => readScalar? chars

/-- The value that a text denotes. -/
def read? (text : String) : Option Json := do
  let (value, rest) ← readValue? depthLimit (skipBlanks text.toList)
  guard (skipBlanks rest).isEmpty
  return value

end PromptMarkup.Json
