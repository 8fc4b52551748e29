/-
**Analysed documents.**

An editor asks about one state of a document, which is parsed, compiled and written once.

* `Analysis`: a document with all that an editor asks about;
* `Analysis.hover?`: what there is under the cursor;
* `Analysis.messageOffsets`, `Analysis.messageAt?`: the messages of a chat in the source.
-/

import PromptMarkup.Compilation
import PromptMarkup.Markup.Node

namespace PromptMarkup

open Markup (Node)

/-- A document with its compilation and its written forms. -/
structure Analysis where
  prompt : Prompt
  compilation : Compilation
  plain : MappedOutput
  messages : List MappedMessage

namespace Analysis

/-- The analysis of a source for the names of a scope. -/
def ofSource (options : CompileOptions) (source : String) (scope : Scope) : Analysis :=
  let prompt := Prompt.ofSource options source
  let compilation := prompt.compile scope
  ⟨prompt, compilation, compilation.mapped,
    writeMappedMessages compilation.document compilation.singleSpeaker⟩

/-- The components that tags stand for. -/
def registry (analysis : Analysis) : Registry := analysis.prompt.options.settings.registry

/-- The nodes at an offset, innermost first. -/
def nodesAt (analysis : Analysis) (offset : Nat) : List Node :=
  (Node.pathAt (.root analysis.prompt.parsed.root) offset).reverse

/-- The characters between two offsets, none if they are not in order at characters. -/
def slice (analysis : Analysis) (start stop : Nat) : List Char :=
  (Text.slice? analysis.prompt.source.toList start stop).getD []

end Analysis

/-! ## Nodes -/

/-- The first element among some nodes. -/
def firstElement? (nodes : List Node) : Option Markup.Element :=
  nodes.findSome? fun
    | .element element => some element
    | _ => none

/-- The first attribute among some nodes. -/
def firstPair? (nodes : List Node) : Option Markup.Attribute :=
  nodes.findSome? fun
    | .pair pair => some pair
    | _ => none

/-- The first open tag among some nodes. -/
def firstOpenTag? (nodes : List Node) : Option Markup.OpenTag :=
  nodes.findSome? fun
    | .openTag tag => some tag
    | _ => none

/-! ## What is under the cursor -/

/-- What there is under the cursor. -/
structure Hover where
  kind : String
  range : Span
  component : Option String
  documentation : Option String
  /-- The values of the shortest expression there, one for each evaluation. -/
  values : List TraceValue

/-- What there is under the cursor, as JSON without the parts that are missing. -/
def Hover.toJson (hover : Hover) : Json :=
  let field := fun (key : String) (text : Option String) =>
    (text.map fun text => (key, Json.string text)).toList
  .object ([("kind", .string hover.kind), ("range", hover.range.toJson)] ++
    field "component" hover.component ++ field "documentation" hover.documentation ++
    (if hover.values.isEmpty then []
    else [("values", .array (hover.values.map TraceValue.toJson))]))

/-- The documentation of a prop of a component, or of the component itself. -/
def documentation? (component : Component) (pair : Option Markup.Attribute) : Option String :=
  match pair with
  | some pair => (component.property? pair.key).map Property.doc
  | none => some component.doc

namespace Analysis

/-- The component of the innermost element among some nodes. -/
def component? (analysis : Analysis) (nodes : List Node) : Option Component :=
  (firstElement? nodes).bind fun element => analysis.registry.lookup element.name

/-- The innermost node at an offset, with what it stands for. -/
def hover? (analysis : Analysis) (offset : Nat) : Option Hover :=
  let nodes := analysis.nodesAt offset
  let component := analysis.component? nodes
  let values := ((analysis.compilation.trace.touching offset).head?.map TraceRecord.values).getD []
  nodes.head?.map fun innermost =>
    ⟨innermost.kindName, innermost.span, component.map Component.name,
      component.bind fun component => documentation? component (firstPair? nodes), values⟩

/-! ## Messages -/

/-- The range of each message in the source. -/
def messageOffsets (analysis : Analysis) : List (Speaker × Span) :=
  analysis.messages.map fun message => (message.speaker, message.span)

/-- The index of the first message around an offset. -/
def messageAt? (analysis : Analysis) (offset : Nat) : Option Nat :=
  analysis.messages.findIdx? fun message => message.span.contains offset

end Analysis

end PromptMarkup
