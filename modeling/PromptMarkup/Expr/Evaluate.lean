/-
**Evaluating expressions.**

An optional access to null ends the whole chain of accesses it stands in: the chain then has no
value, and an expression without a value counts as null.

* `Environment`: the names and functions that an expression sees;
* `Expr.evaluateChain`: the value of an expression, if its chain is not cut short;
* `Expr.evaluate`: the value of an expression;
* `Expr.run`: the value of a text that is an expression.
-/

import PromptMarkup.Expr.Functions
import PromptMarkup.Expr.Parser
import PromptMarkup.Schema.Namespace
import PromptMarkup.Value.Libraries

namespace PromptMarkup

/-- What an expression sees: functions, libraries and the values of names. -/
structure Environment where
  functions : Expr.FunctionTable
  resolve : String → Option Value

/-- The value of a literal. -/
def Literal.toValue : Literal → Value
  | .null => .null
  | .bool value => .bool value
  | .number value => .number value
  | .string value => .string value

namespace Expr

/-! ## Names -/

/-- The value of a name: a binding, a library or a number with a name. -/
def lookup (environment : Environment) (name : String) : Except ExprError Value :=
  match environment.resolve name, environment.functions.library? name with
  | some value, _ => .ok value
  | none, some value => .ok value
  | none, none =>
    match name with
    | "NaN" => .ok (.number Decimal.notANumber)
    | "Infinity" => .ok (.number Decimal.infinity)
    | _ => .error (.undefined name)

/-- The function of a name that has no value. -/
def functionOf (environment : Environment) (name : String) : Except ExprError NativeFunction :=
  match environment.functions.function? name, environment.functions.library? name with
  | some function, _ => .ok function
  | none, some _ => .error (.notCallable name)
  | none, none => .error (.undefined name)

/-! ## Accesses -/

/-- A whole number that is the index of one of so many items. -/
def indexOf? (number : Float) (count : Nat) : Option Nat :=
  let index := Number.toCount number
  if Number.isWhole number && 0.0 ≤ number && index < count then some index else none

/-- A property of a value; a missing one is null. -/
def getProperty (target : Value) (property : String) : Except ExprError Value :=
  match target with
  | .null => .error (.type (.nullProperty property))
  | .string text =>
    .ok (if property = "length" then .number (Float.ofNat text.length) else .null)
  | .array items =>
    .ok (if property = "length" then .number (Float.ofNat items.length) else .null)
  | .object fields => .ok ((fields.lookup property).getD .null)
  | .library .math => .ok ((Value.mathConstant? property).elim .null Value.number)
  | _ => .ok .null

/-- The item of a value at an index, or the property of that name. -/
def getIndex (target key : Value) : Except ExprError Value :=
  match target, key with
  | .array items, .number number =>
    .ok (((indexOf? number items.length).bind fun index => items[index]?).getD .null)
  | .string text, .number number =>
    let chars := text.toList
    .ok (((indexOf? number chars.length).bind fun index => chars[index]?).elim .null fun char =>
      .string char.toString)
  | _, _ => getProperty target key.display

/-- A method of a value. -/
def callMember (target : Value) (method : String) (args : List Value) : Except ExprError Value :=
  match target with
  | .library .json => Value.jsonMethod method args
  | .library .math => Value.mathMethod method args
  | .library .object => Value.objectMethod method args
  | .library .schema => Schema.namespaceMethod method args
  | .builder builder => Schema.builderMethod builder method args
  | other => Value.callMethod other method args

/-- What an access goes on with: nothing when the chain is cut short already, or when the access is
optional and meets null. -/
def accessed (optional : Bool) (target : Option Value) : Option Value :=
  target.filter fun value => !(optional && value.isNull)

/-- The words for an expression that is called. -/
def callName : Expr → String
  | .name text => text
  | .member _ property _ => property
  | _ => "expression"

/-! ## Operators -/

/-- The value of an operator in front of an operand. -/
def applyUnary (op : UnaryOp) (operand : Value) : Value :=
  match op with
  | .not => .bool !operand.isTruthy
  | .negate => .number (-operand.toNumber)
  | .plus => .number operand.toNumber
  | .typeOf =>
    match operand with
    | .null => .string "object"
    | .array _ => .string "object"
    | other => .string other.typeName

/-- A value that a sum joins as text. -/
def joinsAsText : Value → Bool
  | .string _ => true
  | .array _ => true
  | .object _ => true
  | _ => false

/-- The sum of two values, or their texts one after the other. -/
def addValues (left right : Value) : Value :=
  if joinsAsText left || joinsAsText right then .string (left.display ++ right.display)
  else .number (left.toNumber + right.toNumber)

/-- Two values are equal up to the conversion of texts and truth values to numbers. -/
def looselyEqual (left right : Value) : Bool :=
  match left, right with
  | .null, .null => true
  | .null, _ => false
  | _, .null => false
  | .number _, .string _ => left.toNumber == right.toNumber
  | .string _, .number _ => left.toNumber == right.toNumber
  | .bool _, _ => left.toNumber == right.toNumber
  | _, .bool _ => left.toNumber == right.toNumber
  | _, _ => left.same right

/-- The order of two floats, unless one of them is no number. -/
def orderFloats (left right : Float) : Option Ordering :=
  if left < right then some .lt
  else if right < left then some .gt
  else if left == right then some .eq
  else none

/-- The order of two values: texts by their characters, everything else as numbers. -/
def orderValues (left right : Value) : Option Ordering :=
  match left, right with
  | .string first, .string second => some (compare first second)
  | _, _ => orderFloats left.toNumber right.toNumber

/-- A value is a key or an index of another one. -/
def containsKey (key target : Value) : Except ExprError Bool :=
  match target with
  | .object fields => .ok (fields.lookup key.display).isSome
  | .array items => .ok (indexOf? key.toNumber items.length).isSome
  | other => .error (.type (.notSearchable other.typeName))

/-- The value of an operator between two operands. -/
def applyBinary (op : BinaryOp) (left right : Value) : Except ExprError Value :=
  let order := orderValues left right
  match op with
  | .add => .ok (addValues left right)
  | .subtract => .ok (.number (left.toNumber - right.toNumber))
  | .multiply => .ok (.number (left.toNumber * right.toNumber))
  | .divide => .ok (.number (left.toNumber / right.toNumber))
  | .remainder => .ok (.number (Number.remainder left.toNumber right.toNumber))
  | .equal => .ok (.bool (looselyEqual left right))
  | .notEqual => .ok (.bool !looselyEqual left right)
  | .strictEqual => .ok (.bool (left.same right))
  | .strictNotEqual => .ok (.bool !left.same right)
  | .less => .ok (.bool (order.any Ordering.isLT))
  | .greater => .ok (.bool (order.any Ordering.isGT))
  | .lessEqual => .ok (.bool (order.any Ordering.isLE))
  | .greaterEqual => .ok (.bool (order.any Ordering.isGE))
  | .contains => (containsKey left right).map Value.bool

/-- The left operand decides the value of an operator alone. -/
def settles (op : LogicalOp) (left : Value) : Bool :=
  match op with
  | .and => !left.isTruthy
  | .or => left.isTruthy
  | .nullish => !left.isNull

/-! ## Expressions -/

/-- The value at the end of a chain, null when the chain is cut short. -/
def settled (chain : Option Value) : Value := chain.getD .null

mutual

/-- The value of an expression; none when an optional access in its chain met null. -/
def evaluateChain (environment : Environment) : Expr → Except ExprError (Option Value)
  | .literal value => .ok (some value.toValue)
  | .array items => do return some (.array (← evaluateItems environment items))
  | .object entries => do
    return some (.object (Fields.insertAll [] (← evaluateEntries environment entries)))
  | .name text => do return some (← lookup environment text)
  | .member target property optional => do
    match accessed optional (← evaluateChain environment target) with
    | none => return none
    | some value => return some (← getProperty value property)
  | .index target key optional => do
    match accessed optional (← evaluateChain environment target) with
    | none => return none
    | some value => return some (← getIndex value (settled (← evaluateChain environment key)))
  | .call (.member target property optional) args _ => do
    match accessed optional (← evaluateChain environment target) with
    | none => return none
    | some value => return some (← callMember value property (← evaluateItems environment args))
  | .call (.name text) args optional => do
    match environment.resolve text with
    | none =>
      let function ← functionOf environment text
      return some (← function (← evaluateItems environment args))
    | some value =>
      match accessed optional (some value) with
      | none => return none
      | some _ => .error (.notCallable text)
  | .call callee _ optional => do
    match accessed optional (← evaluateChain environment callee) with
    | none => return none
    | some _ => .error (.notCallable (callName callee))
  | .unary op operand => do
    return some (applyUnary op (settled (← evaluateChain environment operand)))
  | .binary op left right => do
    let left := settled (← evaluateChain environment left)
    return some (← applyBinary op left (settled (← evaluateChain environment right)))
  | .logical op left right => do
    let left := settled (← evaluateChain environment left)
    if settles op left then return some left
    else return some (settled (← evaluateChain environment right))
  | .conditional test consequent alternate => do
    if (settled (← evaluateChain environment test)).isTruthy then
      return some (settled (← evaluateChain environment consequent))
    else return some (settled (← evaluateChain environment alternate))

/-- The values of some expressions. -/
def evaluateItems (environment : Environment) : List Expr → Except ExprError (List Value)
  | [] => .ok []
  | item :: rest => do
    let value := settled (← evaluateChain environment item)
    return value :: (← evaluateItems environment rest)

/-- The values of some fields. -/
def evaluateEntries (environment : Environment) :
    List (String × Expr) → Except ExprError (List (String × Value))
  | [] => .ok []
  | (key, entry) :: rest => do
    let value := settled (← evaluateChain environment entry)
    return (key, value) :: (← evaluateEntries environment rest)

end

/-- The value of an expression. -/
def evaluate (environment : Environment) (expr : Expr) : Except ExprError Value :=
  (evaluateChain environment expr).map settled

/-- The value of a text that is an expression. -/
def run (environment : Environment) (source : String) : Except ExprError Value := do
  (← parse source).evaluate environment

end Expr

end PromptMarkup
