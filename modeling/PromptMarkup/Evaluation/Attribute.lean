/-
**The values of attributes.**

* `attributeValue`: the value of an attribute. A name alone is true, a template that is all of a
  value keeps its type, and text with templates in it becomes a string;
* `attributeText`: an attribute read as text, for names and paths;
* `elementProps`: the props of an element.
-/

import PromptMarkup.Evaluation.State
import PromptMarkup.Markup.Tree

namespace PromptMarkup.Evaluate

open Markup

/-- The range to report a fault of an attribute at. -/
def valueSpan (pair : Attribute) : Span := pair.value.elim pair.span AttributeValue.span

/-- The range to report a fault of an attribute of an element at. -/
def attributeSpan (element : Element) (key : String) (default : Span) : Span :=
  (element.attribute? key).elim default valueSpan

/-- The value of an expression in an attribute. -/
def evaluateAttribute (settings : Settings) (expression : String) (span : Span) :
    Evaluate (Option Value) :=
  evaluateReported settings .attributeExpression expression span

/-- The value of a template that is all of a value; there is none when it is empty. -/
def templateValue (settings : Settings) (template : Template) : Evaluate (Option Value) :=
  if template.expression.isEmpty then return none
  else evaluateAttribute settings template.expression template.span

/-- The text of the parts of a value up to the first one that fails. Empty templates are passed
over. -/
def partsText (settings : Settings) : List QuotedPart → Evaluate (Option String)
  | [] => return some ""
  | .text node :: rest => do
    return (← partsText settings rest).map fun after => node.value ++ after
  | .template template :: rest => do
    if template.expression.isEmpty then partsText settings rest
    else
      match ← evaluateAttribute settings template.expression template.span with
      | none => return none
      | some value => return (← partsText settings rest).map fun after => value.stringify ++ after

/-- The value of quoted text that is read as an expression. -/
def quotedExpression (settings : Settings) (key : String) (quoted : Quoted) :
    Evaluate (Option Value) := do
  if Text.isBlankText quoted.value then
    reportError quoted.span ("Attribute '" ++ key ++ "' has an empty expression")
    return none
  else evaluateAttribute settings quoted.value quoted.valueSpan

/-- The value of an attribute; quoted text may be read as an expression. -/
def attributeValue (settings : Settings) (asExpression : Bool) (pair : Attribute) :
    Evaluate (Option Value) := do
  match pair.value with
  | none => return some (.bool true)
  | some (.quoted quoted) =>
    if asExpression then quotedExpression settings pair.key quoted
    else return some (.string quoted.value)
  | some (.template template) => templateValue settings template
  | some (.quotedTemplate quoted) =>
    match quoted.soleTemplate? with
    | some template => templateValue settings template
    | none => return (← partsText settings quoted.parts).map Value.string
  | some (.forIterator iterator) =>
    return some (.string (iterator.iterator ++ " in " ++ iterator.collection))

/-- An attribute read as text; null counts as missing. -/
def attributeText (settings : Settings) (element : Element) (key : String) :
    Evaluate (Option String) := do
  match element.attribute? key with
  | none => return none
  | some pair =>
    match ← attributeValue settings false pair with
    | none => return none
    | some .null => return none
    | some value => return some value.stringify

/-- An attribute that says whether and how often an element is there. -/
def isDirective (key : String) : Bool :=
  Text.equalIgnoringCase key "if" || Text.equalIgnoringCase key "for"

/-- Props with those of some attributes on top, in the order they are written in. -/
def addProps (settings : Settings) (props : Props) : List Attribute → Evaluate Props
  | [] => return props
  | pair :: rest => do
    let key := camelCase pair.key
    if isDirective key then addProps settings props rest
    else
      match ← attributeValue settings false pair with
      | none => addProps settings props rest
      | some value => addProps settings (Fields.insert key value props) rest

/-- The props of an element: those of the stylesheet, and those of its attributes on top. -/
def elementProps (settings : Settings) (component : Component) (element : Element) :
    Evaluate Props := do
  let state ← get
  addProps settings (state.stylesheet.defaults component element.name) element.opening.attributes

end PromptMarkup.Evaluate
