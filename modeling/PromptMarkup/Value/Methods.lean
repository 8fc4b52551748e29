/-
**Methods of strings, arrays and numbers.**

* `stringMethod`, `arrayMethod`: the methods of one kind of value;
* `callMethod`: a method of any value that is not a library or a schema.
-/

import PromptMarkup.Expr.Error
import PromptMarkup.Text.Case
import PromptMarkup.Text.Cut
import PromptMarkup.Value.Basic

namespace PromptMarkup.Value

/-! ## Arguments -/

/-- The greatest length of a string that a method builds. -/
def builtLengthLimit : Nat := Nat.pow 2 20

/-- The argument at a position, null when it is missing. -/
def argument (args : List Value) (index : Nat) : Value := (args[index]?).getD null

/-- An argument as a count that a string of that length may be built with. -/
def countArgument (args : List Value) (index : Nat) (method : String) : Except ExprError Nat :=
  let count := (argument args index).toNumber
  if !count.isFinite || count < 0.0 || Float.ofNat builtLengthLimit < count then
    .error (.type (.invalidCount method (argument args index).display))
  else .ok (Number.toCount count)

/-- An argument as text; it has to be there. -/
def textArgument (args : List Value) (index : Nat) (method : String) :
    Except ExprError (List Char) :=
  match args[index]? with
  | some value => .ok value.display.toList
  | none => .error (.type (.missingArgument method index))

/-- A bound of a slice: a negative one counts from the end, null stands for `default`. -/
def sliceBound (length default : Nat) (bound : Value) : Nat :=
  match bound with
  | null => default
  | other =>
    let number := other.toNumber
    if number.isNaN then 0
    else if number < 0.0 then length - Number.toCount (-number)
    else min (Number.toCount number) length

/-- The part of a list between two bounds. -/
def sliceList {α : Type} (args : List Value) (items : List α) : List α :=
  let start := sliceBound items.length 0 (argument args 0)
  let stop := sliceBound items.length items.length (argument args 1)
  (items.drop start).take (stop - start)

/-! ## Strings -/

/-- Some characters as a string value. -/
def ofChars (chars : List Char) : Value := string (String.ofList chars)

/-- Characters of `fill` over and over again, `count` of them; none when there are none to take. -/
def cycle (fill : List Char) (count : Nat) : List Char :=
  (List.range count).filterMap fun index => fill[index % fill.length]?

/-- What fills a string up to the width that the first argument gives. -/
def padding (chars : List Char) (method : String) (args : List Value) :
    Except ExprError (List Char) := do
  let wanted := (argument args 0).toNumber
  let width ← if wanted.isNaN || wanted ≤ 0.0 then pure 0 else countArgument args 0 method
  let fill := (args[1]?).elim [' '] fun value => value.display.toList
  return cycle fill (width - chars.length)

/-- The pieces of a string between the separators that the first argument gives. -/
def splitString (chars : List Char) (args : List Value) : Value :=
  match argument args 0 with
  | null => array [ofChars chars]
  | separator =>
    let pattern := separator.display.toList
    if pattern.isEmpty then array (chars.map fun char => ofChars [char])
    else array ((Text.splitOn pattern chars).map ofChars)

/-- A method of a string. -/
def stringMethod (chars : List Char) (method : String) (args : List Value) :
    Except ExprError Value :=
  match method with
  | "toUpperCase" => .ok (ofChars (Text.toUpper chars))
  | "toLowerCase" => .ok (ofChars (Text.toLower chars))
  | "trim" => .ok (ofChars (Text.trim chars))
  | "trimStart" => .ok (ofChars (Text.trimStart chars))
  | "trimEnd" => .ok (ofChars (Text.trimEnd chars))
  | "includes" => do return bool (Text.hasPattern (← textArgument args 0 method) chars)
  | "startsWith" => do return bool ((← textArgument args 0 method).isPrefixOf chars)
  | "endsWith" => do return bool ((← textArgument args 0 method).isSuffixOf chars)
  | "indexOf" => do
    match Text.cutAt? (← textArgument args 0 method) chars with
    | some (before, _) => return number (Float.ofNat before.length)
    | none => return number (-1.0)
  | "split" => .ok (splitString chars args)
  | "replace" => do
    let pattern ← textArgument args 0 method
    return ofChars (Text.replaceFirst pattern (← textArgument args 1 method) chars)
  | "replaceAll" => do
    let pattern ← textArgument args 0 method
    return ofChars (Text.replaceAll pattern (← textArgument args 1 method) chars)
  | "slice" => .ok (ofChars (sliceList args chars))
  | "substring" => .ok (ofChars (sliceList args chars))
  | "repeat" => do
    let count ← countArgument args 0 method
    if builtLengthLimit < Text.byteLength chars * count then .error (.type .tooLong)
    else return ofChars (List.replicate count chars).flatten
  | "padStart" => do return ofChars ((← padding chars method args) ++ chars)
  | "padEnd" => do return ofChars (chars ++ (← padding chars method args))
  | _ => .error (.unknownMethod "string" method)

/-! ## Arrays -/

/-- The place of the first item that equals a value. -/
def placeOf (items : List Value) (value : Value) : Option Nat :=
  items.findIdx? fun item => item.same value

/-- The items of a list followed by those of the arguments, arrays item by item. -/
def concatItems (items args : List Value) : List Value :=
  items ++ args.flatMap fun
    | array more => more
    | other => [other]

/-- The item at an index that counts from the end when it is negative. -/
def itemAt (items : List Value) (index : Float) : Value :=
  let place :=
    if index < 0.0 then
      let back := Number.toCount (-index)
      if back ≤ items.length then some (items.length - back) else none
    else some (Number.toCount index)
  (place.bind fun place => items[place]?).getD null

/-- A method of an array. -/
def arrayMethod (items : List Value) (method : String) (args : List Value) :
    Except ExprError Value :=
  match method with
  | "join" =>
    let separator := match argument args 0 with
      | null => ","
      | value => value.display
    .ok (string (separator.intercalate (displayItems items)))
  | "includes" => .ok (bool (placeOf items (argument args 0)).isSome)
  | "indexOf" => .ok (number ((placeOf items (argument args 0)).elim (-1.0) Float.ofNat))
  | "slice" => .ok (array (sliceList args items))
  | "concat" => .ok (array (concatItems items args))
  | "reverse" => .ok (array items.reverse)
  | "at" => .ok (itemAt items (argument args 0).toNumber)
  | _ => .error (.unknownMethod "array" method)

/-! ## All values -/

/-- A number with as many digits behind the point as the first argument says. -/
def fixedMethod (value : Float) (args : List Value) : Except ExprError Value :=
  let places := (argument args 0).toNumber
  let places := if places.isNaN then 0.0 else places
  if 0.0 ≤ places && places ≤ 100.0 then
    .ok (string (Number.fixedText (Number.toCount places) value))
  else .error (.type .tooManyPlaces)

/-- A method of a value that is not a library or a schema. -/
def callMethod (target : Value) (method : String) (args : List Value) : Except ExprError Value :=
  if method = "toString" then .ok (string target.display)
  else
    match target with
    | string value => stringMethod value.toList method args
    | array items => arrayMethod items method args
    | number value =>
      if method = "toFixed" then fixedMethod value args
      else .error (.unknownMethod "number" method)
    | other => .error (.unknownMethod other.typeName method)

end PromptMarkup.Value
