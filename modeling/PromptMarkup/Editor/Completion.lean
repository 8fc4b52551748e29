/-
**Completions.**

Names of tags, of props and of their values are completed while they are written.

* `Completion`: a text with the range that it replaces;
* `Analysis.complete`: the completions at an offset;
* `beginsWith`: a text continues what has been written, in letters of either case.
-/

import PromptMarkup.Editor.Analysis

namespace PromptMarkup

open Markup (Node)

/-- What a completion completes. -/
inductive CompletionKind where
  | component
  | closeTag
  | property
  | value
  deriving DecidableEq, Repr

/-- The word for what a completion completes. -/
def CompletionKind.name : CompletionKind → String
  | component => "component"
  | closeTag => "close-tag"
  | property => "attribute"
  | value => "value"

/-- A text that may be put in the place of a range. -/
structure Completion where
  label : String
  kind : CompletionKind
  range : Span
  detail : Option String
  deriving DecidableEq, Repr

/-! ## What has been written -/

/-- A text begins with another one, in letters of either case. -/
def beginsWith : List Char → List Char → Bool
  | [], _ => true
  | _ :: _, [] => false
  | expected :: written, char :: rest => expected.toLower = char.toLower && beginsWith written rest

/-- A name begins with what has been written. -/
def continuesText (written : List Char) (name : String) : Bool := beginsWith written name.toList

/-- A letter, a digit, a hyphen or an underscore. -/
def isNamePart (char : Char) : Bool := char.isAlphanum || char = '-' || char = '_'

/-- Nothing, or the beginning of a name. -/
def isPartialName : List Char → Bool
  | [] => true
  | first :: rest => first.isAlpha && rest.all isNamePart

/-- The text behind the last open bracket. -/
def afterLastBracket? (chars : List Char) : Option (List Char) :=
  let (after, rest) := Text.cutWhile (· ≠ '<') chars.reverse
  if rest.isEmpty then none else some after.reverse

/-! ## Kinds of completions -/

/-- The values of a prop. -/
def completeValue (property : Property) (written : List Char) (range : Span) : List Completion :=
  (property.values.filter (continuesText written)).map fun value => ⟨value, .value, range, none⟩

namespace Analysis

/-- The names of components. -/
def completeComponent (analysis : Analysis) (written : List Char) (range : Span) :
    List Completion :=
  (analysis.registry.names.filter (continuesText written)).map fun name =>
    ⟨name, .component, range, (analysis.registry.lookup name).map Component.doc⟩

/-- The names of the attributes of a tag in small letters, without the one that is being
written. -/
def writtenKeys (tag : Markup.OpenTag) (current : Option Markup.Attribute) : List String :=
  let others := tag.attributes.filter fun pair =>
    current.all fun current => current.keySpan ≠ pair.keySpan
  others.map fun pair => Text.lowerAscii pair.key

/-- The props of the component of a tag that are not written yet. -/
def completeProperty (analysis : Analysis) (tag : Markup.OpenTag)
    (current : Option Markup.Attribute) (offset : Nat) : List Completion :=
  match analysis.registry.lookup tag.name with
  | none => []
  | some component =>
    let (written, range) := match current with
      | some pair => (analysis.slice pair.keySpan.start offset, pair.keySpan)
      | none => ([], ⟨offset, offset⟩)
    let keys := writtenKeys tag current
    let offered := component.allProperties.filter fun property =>
      !keys.contains (Text.lowerAscii property.name) && continuesText written property.name
    offered.map fun property => ⟨property.name, .property, range, some property.doc⟩

/-- The first element among some nodes that is not closed before an offset. -/
def openElement? (nodes : List Node) (offset : Nat) : Option Markup.Element :=
  nodes.findSome? fun
    | .element element =>
      if element.closing.all fun tag => tag.span.touches offset then some element else none
    | _ => none

/-- The name of the innermost element that is not closed. -/
def completeCloseTag (nodes : List Node) (offset : Nat) (written : List Char) (range : Span) :
    List Completion :=
  match openElement? nodes offset with
  | some element =>
    if continuesText written element.name then [⟨element.name, .closeTag, range, none⟩] else []
  | none => []

/-- The completions in a text: tags that are only begun are text still. -/
def completeText (analysis : Analysis) (nodes : List Node) (start offset : Nat) :
    List Completion :=
  match afterLastBracket? (analysis.slice start offset) with
  | none => []
  | some after =>
    let (closing, written) := match after with
      | '/' :: rest => (true, rest)
      | _ => (false, after)
    if isPartialName written then
      let range : Span := ⟨offset - Text.byteLength written, offset⟩
      if closing then completeCloseTag nodes offset written range
      else analysis.completeComponent written range
    else []

/-- The completions at an offset. -/
def complete (analysis : Analysis) (offset : Nat) : List Completion :=
  let nodes := analysis.nodesAt offset
  match nodes.head? with
  | some (.openTag tag) =>
    if tag.nameSpan.touches offset then
      analysis.completeComponent (analysis.slice tag.nameSpan.start offset) tag.nameSpan
    else analysis.completeProperty tag none offset
  | some (.pair pair) =>
    if pair.keySpan.touches offset then
      match firstOpenTag? nodes with
      | some tag => analysis.completeProperty tag (some pair) offset
      | none => []
    else []
  | some (.quoted quoted) =>
    if quoted.valueSpan.touches offset then
      let property := (analysis.component? nodes).bind fun component =>
        (firstPair? nodes).bind fun pair => component.property? pair.key
      match property with
      | some property =>
        completeValue property (analysis.slice quoted.valueSpan.start offset) quoted.valueSpan
      | none => []
    else []
  | some (.closeTag tag) =>
    if tag.nameSpan.touches offset then
      completeCloseTag nodes offset (analysis.slice tag.nameSpan.start offset) tag.nameSpan
    else []
  | some (.text text) => analysis.completeText nodes text.span.start offset
  | _ => []

end Analysis

end PromptMarkup
