/-
**The built-in components.**

* `rootComponent`: the root of a document;
* `genericComponent`: what unknown tags stand for;
* `catalogue`: the components that every document may use.
-/

import PromptMarkup.Component.Basic

namespace PromptMarkup

/-! ## Making components -/

/-- A component with props of its own. -/
def withProperties (name : String) (aliases : List String) (kind : ComponentKind)
    (properties : List Property) (doc : String) : Component :=
  ⟨name, aliases, kind, properties, none, doc⟩

/-- A component without props of its own. -/
def plainComponent (name : String) (aliases : List String) (kind : ComponentKind)
    (doc : String) : Component :=
  withProperties name aliases kind [] doc

/-- The props of components with a caption. -/
def captionProperties : List Property := [
  ⟨"caption", [], "Caption text."⟩,
  ⟨"captionStyle", ["header", "bold", "plain", "hidden"], "How the caption is rendered."⟩,
  ⟨"captionEnding", ["colon", "newline", "none"],
    "Text placed after a bold or plain caption."⟩]

/-- The props of media. -/
def mediaProperties : List Property := [
  ⟨"src", [], "Path of the media file."⟩,
  ⟨"base64", [], "Base64 payload, used instead of src."⟩,
  ⟨"type", [], "Media type such as image/png."⟩,
  ⟨"alt", [], "Text used when media cannot be shown."⟩]

/-- A component with a caption. -/
def intention (name : String) (aliases : List String) (caption : Option String) (doc : String) :
    Component :=
  ⟨name, aliases, .intention, captionProperties, caption, doc⟩

/-! ## Components -/

/-- The root of a document, which also stands around documents that have no root. -/
def rootComponent : Component := plainComponent "poml" [] .document "Document root."

/-- What unknown tags stand for. -/
def genericComponent : Component :=
  plainComponent "generic" [] .generic "Unknown element; its children are rendered as they are."

/-- The components that every document may use. -/
def catalogue : List Component := [
  rootComponent,
  plainComponent "p" ["paragraph"] .paragraph "A paragraph.",
  plainComponent "section" [] .division "Groups content; headers inside are one level deeper.",
  plainComponent "h" ["header"] .header "A heading at the current section level.",
  withProperties "cp" ["captioned-paragraph"] .captionedParagraph captionProperties
    "A paragraph with a caption.",
  plainComponent "br" ["newline"] .lineBreak "A line break.",
  plainComponent "span" ["inline"] (.inline .plain) "Inline text.",
  plainComponent "b" ["bold"] (.inline .bold) "Bold text.",
  plainComponent "i" ["italic"] (.inline .italic) "Italic text.",
  plainComponent "s" ["strikethrough"] (.inline .strikethrough) "Struck-through text.",
  plainComponent "u" ["underline"] (.inline .underline) "Underlined text.",
  withProperties "code" [] .code
    [⟨"lang", [], "Language tag of a fenced block."⟩,
     ⟨"inline", ["true", "false"], "Render as inline code."⟩]
    "Inline code or a fenced code block.",
  intention "role" [] (some "Role") "The role the model should take.",
  intention "task" [] (some "Task") "The task to perform.",
  intention "output-format" [] (some "Output Format") "The expected output format.",
  intention "hint" [] (some "Hint") "A hint.",
  intention "introducer" [] none "An introduction to what follows.",
  intention "stepwise-instructions" [] (some "Stepwise Instructions") "Ordered instructions.",
  intention "example" [] (some "Example") "A single example.",
  intention "examples" ["example-set"] (some "Examples") "A set of examples.",
  intention "question" [] (some "Question") "A question.",
  intention "input" ["example-input"] (some "Input") "An example input.",
  intention "output" ["example-output"] (some "Output") "An example output.",
  withProperties "list" [] .list
    [⟨"listStyle", ["dash", "star", "plus", "decimal", "latin"], "Marker used for items."⟩]
    "A list of items.",
  plainComponent "item" ["list-item"] .listItem "A list item.",
  withProperties "table" [] .table
    [⟨"records", [], "Rows: an array of objects or arrays."⟩,
     ⟨"columns", [], "Column names or \x7bfield, header\x7d objects."⟩]
    "A table rendered from records.",
  withProperties "obj" ["object", "data-object"] .object
    [⟨"data", [], "The value to serialize."⟩]
    "A serialized object.",
  withProperties "img" ["image"] .image mediaProperties "An image.",
  withProperties "audio" [] .audio mediaProperties "An audio clip.",
  plainComponent "human-msg" ["user-msg", "human-message", "user-message"] (.message .human)
    "A message from the human.",
  plainComponent "ai-msg" ["assistant-msg", "ai-message", "assistant-message"] (.message .ai)
    "A message from the AI.",
  plainComponent "system-msg" ["system-message"] (.message .system) "A system message.",
  withProperties "tool-request" ["tool-call"] .toolRequest
    [⟨"id", [], "Call id."⟩,
     ⟨"name", [], "Tool name."⟩,
     ⟨"parameters", [], "Arguments object."⟩]
    "A tool call made by the AI.",
  withProperties "tool-response" ["tool-result"] .toolResponse
    [⟨"id", [], "Call id."⟩,
     ⟨"name", [], "Tool name."⟩]
    "The result of a tool call.",
  plainComponent "text" [] .text "Literal text; markup inside is not interpreted.",
  withProperties "let" [] .binding
    [⟨"name", [], "Name to bind."⟩,
     ⟨"value", [], "Expression to bind."⟩,
     ⟨"src", [], "JSON or text file to load."⟩,
     ⟨"type", ["string", "json", "number", "boolean"], "How to read the body."⟩]
    "Binds a variable for the rest of the enclosing element.",
  withProperties "include" [] .inclusion
    [⟨"src", [], "Path of the document to include."⟩,
     ⟨"context", [], "Extra bindings for the included document."⟩]
    "Includes another document.",
  withProperties "output-schema" ["response-schema"] .outputSchema
    [⟨"parser", ["json", "eval", "auto"], "How the body is interpreted."⟩]
    "The response schema.",
  withProperties "tool-definition" ["tool"] .toolDefinition
    [⟨"name", [], "Tool name."⟩,
     ⟨"description", [], "Tool description."⟩,
     ⟨"parser", ["json", "eval", "auto"], "How the body is interpreted."⟩]
    "A tool the model may call.",
  plainComponent "runtime" [] .runtime "Runtime parameters such as model or temperature.",
  plainComponent "stylesheet" [] .stylesheet "Default props per component, as JSON."]

end PromptMarkup
