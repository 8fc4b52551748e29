/-
**The functions and libraries that expressions may use.**

* `GlobalFunction`, `GlobalFunction.apply`: the built-in functions that are called by their name;
* `NativeFunction`, `FunctionTable`: the functions and libraries that an expression sees, which need
  not be built in;
* `FunctionTable.standard`: the built-in functions, and the libraries `JSON`, `Math` and `Object`;
* `FunctionTable.names`: every global name, sorted.
-/

import PromptMarkup.Expr.Error
import PromptMarkup.Value.Methods

namespace PromptMarkup.Expr

open Value

/-- The built-in functions that are called by their name. -/
inductive GlobalFunction where
  | string
  | number
  | boolean
  | parseInt
  | parseFloat
  | isArray
  deriving DecidableEq, Repr

/-- The number that the decimal digits at the front of a text denote, and a sign before them. -/
def leadingInt (chars : List Char) : Float :=
  let chars := Text.trim chars
  let digits := match chars with
    | '-' :: rest => rest
    | '+' :: rest => rest
    | _ => chars
  let value := (Decimal.readFloat? (Text.cutWhile Char.isDigit digits).1).getD Decimal.notANumber
  if chars.head? = some '-' then -value else value

/-- The number that the longest possible front of a text denotes, of at most `count` characters. -/
def longestFloat (chars : List Char) : Nat → Float
  | 0 => Decimal.notANumber
  | count + 1 => (Decimal.readFloat? (chars.take (count + 1))).getD (longestFloat chars count)

/-- The number that the longest possible front of a text denotes. -/
def leadingFloat (chars : List Char) : Float :=
  let chars := Text.trim chars
  longestFloat chars chars.length

/-- The value of a function. -/
def GlobalFunction.apply (function : GlobalFunction) (args : List Value) : Value :=
  let first := argument args 0
  match function with
  | string => .string first.display
  | number => .number first.toNumber
  | boolean => .bool first.isTruthy
  | parseInt => .number (leadingInt first.display.toList)
  | parseFloat => .number (leadingFloat first.display.toList)
  | isArray =>
    match first with
    | .array _ => .bool true
    | _ => .bool false

/-- A function that may be called by its name. -/
abbrev NativeFunction := List Value → Except ExprError Value

/-- A built-in function, which never fails. -/
def GlobalFunction.native (function : GlobalFunction) : NativeFunction := fun args =>
  .ok (function.apply args)

/-- The functions that an expression sees, and the libraries and other values that have a global
name, under their names. -/
structure FunctionTable where
  functions : List (String × NativeFunction)
  libraries : List (String × Value)

namespace FunctionTable

/-- Neither functions nor libraries: there are only operators and methods. -/
def empty : FunctionTable := ⟨[], []⟩

/-- The standard library. -/
def standard : FunctionTable where
  functions := [("String", GlobalFunction.string.native), ("Number", GlobalFunction.number.native),
    ("Boolean", GlobalFunction.boolean.native), ("parseInt", GlobalFunction.parseInt.native),
    ("parseFloat", GlobalFunction.parseFloat.native), ("isArray", GlobalFunction.isArray.native)]
  libraries := [("JSON", .library .json), ("Math", .library .math), ("Object", .library .object)]

/-- A table with the namespace that schemas are built with besides. -/
def withSchemas (table : FunctionTable) : FunctionTable :=
  { table with libraries := Fields.insert "z" (.library .schema) table.libraries }

/-- The function of a name. -/
def function? (table : FunctionTable) (name : String) : Option NativeFunction :=
  table.functions.lookup name

/-- The library of a name, or another value that has it. -/
def library? (table : FunctionTable) (name : String) : Option Value :=
  table.libraries.lookup name

/-- Every global name, sorted. -/
def names (table : FunctionTable) : List String :=
  (Fields.names table.functions ++ Fields.names table.libraries).mergeSort fun first second =>
    decide (first ≤ second)

end FunctionTable

end PromptMarkup.Expr
