/-
**The built-in libraries.**

* `jsonMethod`: texts from values and values from texts;
* `mathMethod`, `mathConstant?`: functions on numbers;
* `objectMethod`: the keys, values and entries of an object.
-/

import PromptMarkup.Json.Reader
import PromptMarkup.Value.Methods

namespace PromptMarkup.Value

/-! ## JSON -/

/-- JSON with the given indent, and without any blanks when the indent is empty. -/
def jsonText (indent : String) (value : Json) : String :=
  if indent.isEmpty then value.compress else value.pretty indent

/-- The indent that the third argument of `stringify` asks for. -/
def indentArgument (args : List Value) : String :=
  match argument args 2 with
  | number count =>
    if 0.0 < count then String.ofList (List.replicate (min (Number.toCount count) 10) ' ') else ""
  | string text => text
  | _ => ""

/-- A method of the library `JSON`. -/
def jsonMethod (method : String) (args : List Value) : Except ExprError Value :=
  match method with
  | "stringify" => .ok (string (jsonText (indentArgument args) (argument args 0).toJson))
  | "parse" => do
    let text ← textArgument args 0 "JSON.parse"
    match Json.read? (String.ofList text) with
    | some value => return ofJson value
    | none => .error .invalidJson
  | _ => .error (.unknownMethod "JSON" method)

/-! ## Numbers -/

/-- The smaller of two numbers; the value that is no number gives way. -/
def smaller (first second : Float) : Float :=
  if second.isNaN then first
  else if first.isNaN then second
  else if second < first then second
  else first

/-- The larger of two numbers; the value that is no number gives way. -/
def larger (first second : Float) : Float :=
  if second.isNaN then first
  else if first.isNaN then second
  else if first < second then second
  else first

/-- A constant of the library `Math`. -/
def mathConstant? : String → Option Float
  | "PI" => some 3.141592653589793
  | "E" => some 2.718281828459045
  | _ => none

/-- A method of the library `Math`. -/
def mathMethod (method : String) (args : List Value) : Except ExprError Value :=
  let numbers := args.map toNumber
  let first := (numbers[0]?).getD Decimal.notANumber
  let second := (numbers[1]?).getD Decimal.notANumber
  match method with
  | "min" => .ok (number (numbers.foldl smaller Decimal.infinity))
  | "max" => .ok (number (numbers.foldl larger (-Decimal.infinity)))
  | "round" => .ok (number (first + 0.5).floor)
  | "floor" => .ok (number first.floor)
  | "ceil" => .ok (number first.ceil)
  | "abs" => .ok (number first.abs)
  | "sqrt" => .ok (number first.sqrt)
  | "pow" => .ok (number (first.pow second))
  | _ => .error (.unknownMethod "Math" method)

/-! ## Objects -/

/-- A method of the library `Object`; what is not an object has no fields. -/
def objectMethod (method : String) (args : List Value) : Except ExprError Value :=
  match argument args 0 with
  | null => .error (.type (.calledOnNull method))
  | value =>
    let fields := match value with
      | object fields => fields
      | _ => []
    match method with
    | "keys" => .ok (array (fields.map fun field => string field.1))
    | "values" => .ok (array (fields.map Prod.snd))
    | "entries" => .ok (array (fields.map fun field => array [string field.1, field.2]))
    | _ => .error (.unknownMethod "Object" method)

end PromptMarkup.Value
