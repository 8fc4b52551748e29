/-
**Bindings.**

The element `let` binds a name, or all names of an object, to an expression, to a file or to its
body.

* `BindingError`: why something is no value of the type that is asked for;
* `readBinding`: the value that a text stands for;
* `evaluateBinding`: the bindings of an element.
-/

import PromptMarkup.Component.Tree
import PromptMarkup.Evaluation.Attribute
import PromptMarkup.Json.Reader

namespace PromptMarkup

/-- Why a text stands for no value. -/
inductive BindingError where
  | notJson
  | notNumber (text : String)
  | notBoolean (text : String)
  | unknownType (name : String)
  deriving DecidableEq, Repr

/-- The words for a text that stands for no value. -/
def BindingError.message : BindingError → String
  | notJson => "let content is not valid JSON: not a JSON text"
  | notNumber text => "let content '" ++ text ++ "' is not a number"
  | notBoolean text => "let content '" ++ text ++ "' is not a boolean"
  | unknownType name => "Unknown let type '" ++ name ++ "'"

/-- The value that a text stands for when a type is given. -/
def readTyped (text typeName : String) : Except BindingError Value :=
  let inner := Text.trimmed text
  match Text.lowerAscii typeName with
  | "string" | "text" => .ok (.string text)
  | "json" | "object" =>
    match Json.read? text with
    | some json => .ok (.ofJson json)
    | none => .error .notJson
  | "number" =>
    match Decimal.readFloat? inner.toList with
    | some number => .ok (.number number)
    | none => .error (.notNumber inner)
  | "boolean" =>
    match inner with
    | "true" => .ok (.bool true)
    | "false" => .ok (.bool false)
    | other => .error (.notBoolean other)
  | other => .error (.unknownType other)

/-- The value that a text stands for. Without a type it is JSON where that can be read. -/
def readBinding (text : String) : Option String → Except BindingError Value
  | some typeName => readTyped text typeName
  | none => .ok (((Json.read? (Text.trimmed text)).map Value.ofJson).getD (.string text))

namespace Evaluate

open Markup

/-- The value that a text stands for, of which faults are reported. -/
def readReported (span : Span) (text : String) (typeName : Option String) :
    Evaluate (Option Value) := do
  match readBinding text typeName with
  | .ok value => return some value
  | .error error =>
    reportError span error.message
    return none

/-- The text of a file, of which faults are reported. -/
def readFile (span : Span) (path : String) : Evaluate (Option String) := do
  ask path
  match (← get).loader.readText path with
  | .ok text => return some text
  | .error error =>
    reportError span error.message
    return none

/-- The type of a file unless another one is given. -/
def fileType (path : String) : String :=
  if (Path.extension? path).any fun extension => Text.equalIgnoringCase extension "json" then "json"
  else "string"

/-- The value of a file that an attribute names. -/
def fileValue (settings : Settings) (element : Element) (pair : Attribute)
    (typeName : Option String) : Evaluate (Option Value) := do
  match ← attributeText settings element "src" with
  | none => return none
  | some source =>
    let path := (← get).loader.resolve source
    match ← readFile (valueSpan pair) path with
    | none => return none
    | some text => readReported (valueSpan pair) text (some (typeName.getD (fileType path)))

/-- The value that an element binds; `body` evaluates what it contains. -/
def boundValue (settings : Settings) (element : Element) (body : Evaluate (List ComponentChild))
    (typeName : Option String) : Evaluate (Option Value) := do
  match element.attribute? "value", element.attribute? "src" with
  | some pair, _ => attributeValue settings true pair
  | none, some pair => fileValue settings element pair typeName
  | none, none => readReported element.bodySpan (textOfChildren (← body)) typeName

/-- Binds names one after the other. -/
def bindNames : Frame → Evaluate Unit
  | [] => return ()
  | (name, value) :: rest => do
    bindName name value
    bindNames rest

/-- Evaluates an element that binds names. -/
def evaluateBinding (settings : Settings) (element : Element)
    (body : Evaluate (List ComponentChild)) : Evaluate Unit := do
  let name ← attributeText settings element "name"
  let typeName ← attributeText settings element "type"
  match ← boundValue settings element body typeName, name with
  | none, _ => return ()
  | some value, some name => bindName name value
  | some (.object fields), none => bindNames fields
  | some _, none => reportError element.opening.span "let without a name must bind an object"

end Evaluate

end PromptMarkup
