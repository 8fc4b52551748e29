/-
**Stylesheets.**

A stylesheet gives props to all elements of a component. What it says of every component comes
first, and then what it says of the names of that component.

* `Stylesheet.set`, `Stylesheet.merge`: one more prop, and another stylesheet on top;
* `Stylesheet.defaults`: the props of an element;
* `Stylesheet.ofJson`, `Stylesheet.read`: the stylesheet that JSON or a text describes.
-/

import PromptMarkup.Component.Basic
import PromptMarkup.Json.Reader
import PromptMarkup.Value.Basic

namespace PromptMarkup

open Markup (camelCase normalizeName)

/-- The props that a rule gives. -/
abbrev Props := List (String × Value)

/-- Props under the name of a component in normal form, or under a star for all components. -/
structure Stylesheet where
  rules : List (String × Props)

/-- Why something is no stylesheet. -/
inductive StylesheetError where
  | notJson
  | notObject
  | notProps (selector : String)
  deriving DecidableEq, Repr

/-- The words for something that is no stylesheet. -/
def StylesheetError.message : StylesheetError → String
  | notJson => "stylesheet is not valid JSON: not a JSON text"
  | notObject => "stylesheet must be a JSON object"
  | notProps selector => "stylesheet entry '" ++ selector ++ "' must be an object"

namespace Stylesheet

/-- No rules at all. -/
def empty : Stylesheet := ⟨[]⟩

/-- The selector of all components. -/
def anyComponent : String := "*"

/-- The form under which the rules for a selector are kept. -/
def key (selector : String) : String :=
  let name := Text.trimmed selector
  if name = anyComponent then anyComponent else normalizeName name

/-- Props set by a rule on top of those it sets already. -/
def extend (key : String) (props : Props) (sheet : Stylesheet) : Stylesheet :=
  let old := (sheet.rules.lookup key).getD []
  ⟨Fields.insert key (Fields.insertAll old props) sheet.rules⟩

/-- One more prop. -/
def set (selector prop : String) (value : Value) (sheet : Stylesheet) : Stylesheet :=
  sheet.extend (key selector) [(camelCase prop, value)]

/-- The rules of a stylesheet with those of another one on top. -/
def merge (sheet other : Stylesheet) : Stylesheet :=
  other.rules.foldl (fun sheet rule => sheet.extend rule.1 rule.2) sheet

/-- The stylesheet that JSON describes. -/
def ofJson (json : Json) : Except StylesheetError Stylesheet := do
  match json with
  | .object selectors =>
    selectors.foldlM (fun sheet (selector, rule) =>
      match rule with
      | .object props =>
        .ok (props.foldl (fun sheet (prop, value) => sheet.set selector prop (.ofJson value)) sheet)
      | _ => .error (.notProps selector)) empty
  | _ => .error .notObject

/-- The stylesheet that a text describes. -/
def read (source : String) : Except StylesheetError Stylesheet :=
  match Json.read? source with
  | some json => ofJson json
  | none => .error .notJson

/-- The keys of the rules for an element of a component: the names of the component and the tag as
written. -/
def keysFor (component : Component) (tag : String) : List String :=
  let name := normalizeName tag
  if name ∈ component.keys then component.keys else component.keys ++ [name]

/-- The props of an element of a component. -/
def defaults (sheet : Stylesheet) (component : Component) (tag : String) : Props :=
  let named := sheet.rules.filter fun rule => rule.1 ∈ keysFor component tag
  named.foldl (fun props rule => Fields.insertAll props rule.2)
    (Fields.insertAll [] ((sheet.rules.lookup anyComponent).getD []))

end Stylesheet

end PromptMarkup
