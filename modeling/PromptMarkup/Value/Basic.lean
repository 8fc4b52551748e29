/-
**Values of expressions.**

* `Value`: what expressions and props evaluate to;
* `Value.same`: equality;
* `Value.isTruthy`, `Value.toNumber`: a value as a condition and as a number;
* `Value.stringify`, `Value.display`: a value spliced into text, and a value turned into a string;
* `Value.ofJson`, `Value.toJson`: the way from and to JSON;
* `Value.identify`: a value whose builders all have an identity.
-/

import PromptMarkup.Json.Printer
import PromptMarkup.Schema.Builder
import PromptMarkup.Text.Blank
import PromptMarkup.Value.Number

namespace PromptMarkup

/-- The objects whose methods are built in. -/
inductive Library where
  | json
  | math
  | object
  /-- The namespace that schemas are built with. -/
  | schema
  deriving DecidableEq, Repr

/-- The name of a library. -/
def Library.name : Library → String
  | json => "JSON"
  | math => "Math"
  | object => "Object"
  | schema => "z"

/-- What an expression evaluates to. -/
inductive Value where
  | null
  | bool (value : Bool)
  | number (value : Float)
  | string (value : String)
  | array (items : List Value)
  | object (fields : List (String × Value))
  | library (which : Library)
  | builder (schema : Schema.Builder)
  deriving Inhabited

namespace Value

/-! ## Kinds -/

/-- The word for the kind of a value. -/
def typeName : Value → String
  | null => "null"
  | bool _ => "boolean"
  | number _ => "number"
  | string _ => "string"
  | array _ => "array"
  | object _ => "object"
  | library which => which.name
  | builder _ => "schema"

/-- The value is null. -/
def isNull : Value → Bool
  | null => true
  | _ => false

/-- The text of a string. -/
def string? : Value → Option String
  | string value => some value
  | _ => none

/-! ## Equality -/

mutual

/-- Two values are equal. Numbers are compared as numbers, and the order of fields does not
count. -/
def same : Value → Value → Bool
  | null, null => true
  | bool first, bool second => first = second
  | number first, number second => first == second
  | string first, string second => first = second
  | array first, array second => sameItems first second
  | object first, object second => first.length = second.length && sameFields first second
  | library first, library second => first = second
  | builder first, builder second => first.same second
  | _, _ => false

/-- Two lists are equal item by item. -/
def sameItems : List Value → List Value → Bool
  | [], [] => true
  | first :: rest, second :: others => same first second && sameItems rest others
  | _, _ => false

/-- Every field of the first list has an equal one of its name in the second. -/
def sameFields : List (String × Value) → List (String × Value) → Bool
  | [], _ => true
  | (key, value) :: rest, others =>
    (match others.lookup key with
    | some other => same value other
    | none => false) && sameFields rest others

end

/-! ## JSON -/

/-- A number as JSON: whole numbers below two to the fifty-third lose their fraction, and what is
not finite becomes null. -/
def numberToJson (value : Float) : Json :=
  if Number.isWhole value && value.abs < 9007199254740992.0 then .integer (Number.toInt value)
  else if value.isFinite then .float value
  else .null

mutual

/-- A value as JSON. -/
def toJson : Value → Json
  | null => .null
  | bool value => .bool value
  | number value => numberToJson value
  | string value => .string value
  | array items => .array (itemsToJson items)
  | object fields => .object (fieldsToJson fields)
  | library _ => .null
  | builder schema => schema.schema

/-- Each item as JSON. -/
def itemsToJson : List Value → List Json
  | [] => []
  | item :: rest => toJson item :: itemsToJson rest

/-- Each field as JSON. -/
def fieldsToJson : List (String × Value) → List (String × Json)
  | [] => []
  | (key, value) :: rest => (key, toJson value) :: fieldsToJson rest

end

mutual

/-- The value of some JSON. -/
def ofJson : Json → Value
  | .null => null
  | .bool value => bool value
  | .integer value => number (Float.ofInt value)
  | .float value => number value
  | .string value => string value
  | .array items => array (itemsOfJson items)
  | .object fields => object (fieldsOfJson fields)

/-- The values of some items. -/
def itemsOfJson : List Json → List Value
  | [] => []
  | item :: rest => ofJson item :: itemsOfJson rest

/-- The values of some fields. -/
def fieldsOfJson : List (String × Json) → List (String × Value)
  | [] => []
  | (key, value) :: rest => (key, ofJson value) :: fieldsOfJson rest

end

/-! ## Conversions -/

/-- A value as a condition: null, false, zero, the value that is no number and the empty string do
not hold. -/
def isTruthy : Value → Bool
  | null => false
  | bool value => value
  | number value => value != 0.0 && !value.isNaN
  | string value => !value.isEmpty
  | _ => true

/-- A value as a number. -/
def toNumber : Value → Float
  | null => 0.0
  | bool value => if value then 1.0 else 0.0
  | number value => value
  | string value => Number.ofText value
  | _ => Decimal.notANumber

/-- A value spliced into text: arrays and objects are written as JSON, null as nothing. -/
def stringify (value : Value) : String :=
  match value with
  | null => ""
  | bool true => "true"
  | bool false => "false"
  | number value => Number.numberText value
  | string value => value
  | _ => value.toJson.compress

mutual

/-- A value turned into a string, as in a concatenation. -/
def display : Value → String
  | null => "null"
  | array items => ",".intercalate (displayItems items)
  | object _ => "[object Object]"
  | other => other.stringify

/-- Each item turned into a string, null into the empty one. -/
def displayItems : List Value → List String
  | [] => []
  | null :: rest => "" :: displayItems rest
  | item :: rest => display item :: displayItems rest

end

/-! ## Identities

A builder is equal to itself alone, so a builder that is bound to a name needs an identity by which
it is known when it is met again. -/

mutual

/-- A value whose builders have identities, new ones from `next` on, and the next one that is
free. -/
def identify (next : Nat) : Value → Value × Nat
  | array items =>
    let (items, next) := identifyItems next items
    (array items, next)
  | object fields =>
    let (fields, next) := identifyFields next fields
    (object fields, next)
  | builder schema =>
    if schema.identity.isSome then (builder schema, next)
    else (builder { schema with identity := some next }, next + 1)
  | other => (other, next)

/-- Some items whose builders have identities. -/
def identifyItems (next : Nat) : List Value → List Value × Nat
  | [] => ([], next)
  | item :: rest =>
    let (item, next) := identify next item
    let (rest, next) := identifyItems next rest
    (item :: rest, next)

/-- Some fields whose builders have identities. -/
def identifyFields (next : Nat) : List (String × Value) → List (String × Value) × Nat
  | [] => ([], next)
  | (key, value) :: rest =>
    let (value, next) := identify next value
    let (rest, next) := identifyFields next rest
    ((key, value) :: rest, next)

end

end Value

end PromptMarkup
