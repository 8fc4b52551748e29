/-
**The evaluated form of a document.**

Evaluation turns elements into components with values for their props, and templates into text.

* `ComponentNode`, `ComponentChild`: a component with its props and children, and a child of one;
* `ComponentNode.textContent`: all text below a component;
* `ComponentNode.reanchor`: a component moved to another range, as content of other files is.
-/

import PromptMarkup.Component.Basic
import PromptMarkup.Component.Stylesheet
import PromptMarkup.Source.Span

namespace PromptMarkup

/-- Text of a document or of an evaluated template. It is exact when it is what the source reads at
its range. -/
structure TextChunk where
  value : String
  span : Span
  exact : Bool
  deriving DecidableEq, Repr

mutual

/-- A component that an element stands for. The tag is kept as written. -/
structure ComponentNode where
  component : Component
  tag : String
  props : Props
  children : List ComponentChild
  span : Span

/-- A child of a component. -/
inductive ComponentChild where
  | node (node : ComponentNode)
  | text (chunk : TextChunk)

end

/-- Text that came from another file. -/
def TextChunk.reanchor (span : Span) (chunk : TextChunk) : TextChunk :=
  { chunk with span := span, exact := false }

namespace ComponentNode

/-- The value of a prop. -/
def prop? (node : ComponentNode) (name : String) : Option Value := node.props.lookup name

/-- The text of a prop that is a string. -/
def propString? (node : ComponentNode) (name : String) : Option String :=
  (node.prop? name).bind Value.string?

/-- A prop as text; null counts as missing. -/
def propText? (node : ComponentNode) (name : String) : Option String :=
  ((node.prop? name).filter fun value => !value.isNull).map Value.stringify

end ComponentNode

/-! ## Text -/

mutual

/-- All text below a component. -/
def ComponentNode.textContent : ComponentNode → String
  | ⟨_, _, _, children, _⟩ => textOfChildren children

/-- All text of a child. -/
def ComponentChild.textContent : ComponentChild → String
  | .node node => node.textContent
  | .text chunk => chunk.value

/-- All text of some children. -/
def textOfChildren : List ComponentChild → String
  | [] => ""
  | child :: rest => child.textContent ++ textOfChildren rest

end

/-! ## Content of other files -/

mutual

/-- A component with everything below it moved to a range. -/
def ComponentNode.reanchor (span : Span) : ComponentNode → ComponentNode
  | ⟨component, tag, props, children, _⟩ =>
    ⟨component, tag, props, reanchorChildren span children, span⟩

/-- A child moved to a range. -/
def ComponentChild.reanchor (span : Span) : ComponentChild → ComponentChild
  | .node node => .node (node.reanchor span)
  | .text chunk => .text (chunk.reanchor span)

/-- Some children moved to a range. -/
def reanchorChildren (span : Span) : List ComponentChild → List ComponentChild
  | [] => []
  | child :: rest => child.reanchor span :: reanchorChildren span rest

end

/-! ## Roots -/

/-- The component that is all there is besides blanks, if it is the root of a document. -/
def soleDocument? (children : List ComponentChild) : Option ComponentNode :=
  let significant := children.filter fun
    | .text chunk => !Text.isBlankText chunk.value
    | .node _ => true
  match significant with
  | [.node node] => if node.component.kind = .document then some node else none
  | _ => none

end PromptMarkup
