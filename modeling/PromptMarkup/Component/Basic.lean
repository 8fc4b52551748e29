/-
**Components.**

* `ComponentKind`: what a component does;
* `Property`: a prop that a component understands;
* `Component`: a name with everything that is known about it;
* `Component.property?`: the prop of a name, under any spelling of it.
-/

import PromptMarkup.Block.Style
import PromptMarkup.Markup.Name

namespace PromptMarkup

open Markup (normalizeName)

/-- What a component does. -/
inductive ComponentKind where
  | document
  | paragraph
  | division
  | header
  | captionedParagraph
  | lineBreak
  | inline (style : InlineStyle)
  | code
  /-- A block with a caption such as a task or a role. -/
  | intention
  | list
  | listItem
  | table
  | object
  | image
  | audio
  | message (speaker : Speaker)
  | toolRequest
  | toolResponse
  /-- Text without markup in it. -/
  | text
  | binding
  | inclusion
  | outputSchema
  | toolDefinition
  | runtime
  | stylesheet
  /-- An unknown tag, of which the children are kept. -/
  | generic
  deriving DecidableEq, Repr

/-- A kind that declares something and leaves no content. -/
def ComponentKind.isMeta : ComponentKind → Bool
  | outputSchema => true
  | toolDefinition => true
  | runtime => true
  | stylesheet => true
  | _ => false

/-- A prop that a component understands, with its values if there are finitely many. -/
structure Property where
  name : String
  values : List String
  doc : String
  deriving DecidableEq, Repr

/-- A component and its names. -/
structure Component where
  name : String
  aliases : List String
  kind : ComponentKind
  properties : List Property
  defaultCaption : Option String
  doc : String
  deriving DecidableEq, Repr

/-! ## Props of all components -/

/-- The names of the presentations. -/
def presentationNames : List String :=
  ["markdown", "html", "text", "json", "yaml", "xml", "multimedia"]

/-- The names of the speakers that content may be attributed to. -/
def speakerNames : List String := ["human", "ai", "system"]

/-- The props that every component accepts. -/
def commonProperties : List Property := [
  ⟨"syntax", presentationNames, "Presentation used to render this element."⟩,
  ⟨"speaker", speakerNames, "Speaker the content is attributed to."⟩,
  ⟨"if", [], "Boolean expression; the element is omitted when false."⟩,
  ⟨"for", [], "\x60item in expression\x60; repeats the element per item."⟩,
  ⟨"whiteSpace", ["pre", "filter", "trim"], "How whitespace in text is treated."⟩]

namespace Component

/-- All names of a component in normal form. -/
def keys (component : Component) : List String :=
  (component.name :: component.aliases).map normalizeName

/-- The props of a component, its own ones first. -/
def allProperties (component : Component) : List Property :=
  component.properties ++ commonProperties

/-- The prop of a name. -/
def property? (component : Component) (name : String) : Option Property :=
  component.allProperties.find? fun property =>
    normalizeName property.name = normalizeName name

end Component

end PromptMarkup
