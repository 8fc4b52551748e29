/-
**Evaluating documents.**

Elements are looked up, repeated as `for` says, left out as `if` says, and turned into components
with values for their props. Comments can switch components on and off, make the whole document one
message and say what becomes of blanks; they hold for the rest of the file.

* `mediaType`, `embedMedia`: the type of a media file, and the props of media with the contents of
  the file that they name;
* `applyPragma`: the effect of a pragma;
* `expandElement`: what an element stands for;
* `walkContents`: what some contents stand for;
* `evaluateRoot`: the content of a document, by way of what it includes;
* `evaluateFile`: the same with as many includes below it as a number allows;
* `evaluateDocument`: the evaluation of a whole document.
-/

import PromptMarkup.Evaluation.Attribute
import PromptMarkup.Evaluation.Include
import PromptMarkup.Text.Base64

namespace PromptMarkup

open Markup

/-! ## Media -/

/-- The types of media by their extensions. -/
def mediaTypes : List (String × String) := [
  ("png", "image/png"), ("jpg", "image/jpeg"), ("jpeg", "image/jpeg"), ("gif", "image/gif"),
  ("webp", "image/webp"), ("bmp", "image/bmp"), ("svg", "image/svg+xml"), ("mp3", "audio/mpeg"),
  ("wav", "audio/wav"), ("ogg", "audio/ogg"), ("flac", "audio/flac"), ("m4a", "audio/mp4")]

/-- The type of a media file. -/
def mediaType (path : String) : String :=
  ((Path.extension? path).bind fun extension => mediaTypes.lookup (Text.lowerAscii extension)).getD
    "application/octet-stream"

namespace Evaluate

/-- The props of media with the contents and the type of a file. -/
def withContents (props : Props) (path : String) (bytes : List UInt8) : Props :=
  let props := Fields.insert "base64" (.string (Text.base64 bytes)) props
  if Fields.contains "type" props then props
  else Fields.insert "type" (.string (mediaType path)) props

/-- The props of media with the contents of the file that they name, unless they hold contents
already. -/
def embedMedia (settings : Settings) (element : Element) (props : Props) : Evaluate Props := do
  if !settings.embedMedia || Fields.contains "base64" props then return props
  else
    match (props.lookup "src").bind Value.string? with
    | none => return props
    | some source =>
      let path := (← get).loader.resolve source
      ask path
      match (← get).loader.readBytes path with
      | .ok bytes => return withContents props path bytes
      | .error error =>
        reportError (attributeSpan element "src" element.opening.span) error.message
        return props

/-! ## Pragmas -/

/-- Whether an option switches a component on, and the name of the component. -/
def readSwitch (option : String) : Bool × String :=
  match option.toList with
  | '-' :: name => (false, String.ofList name)
  | '+' :: name => (true, String.ofList name)
  | _ => (true, option)

/-- Switches components on and off. -/
def switchComponents (span : Span) : List String → Evaluate Unit
  | [] => return ()
  | option :: rest => do
    let (enabled, name) := readSwitch option
    match (← get).registry.setEnabled name enabled with
    | some registry => modify fun state => { state with registry := registry }
    | none => reportWarning span ("Unknown component '" ++ name ++ "' in pragma")
    switchComponents span rest

/-- Says whether the whole document is one message. -/
def setSingleSpeaker (single : Bool) : Evaluate Unit :=
  modify fun state => { state with singleSpeaker := single }

/-- Says what becomes of blanks. -/
def setSpacing (span : Span) (value : String) : Evaluate Unit :=
  match Spacing.read value with
  | .ok _ => modify fun state =>
    { state with
      stylesheet := state.stylesheet.set Stylesheet.anyComponent "whiteSpace" (.string value) }
  | .error _ => reportWarning span ("Unknown whitespace mode '" ++ value ++ "'")

/-- Applies a pragma. -/
def applyPragma (pragma : Pragma) : Evaluate Unit :=
  match Text.lowerAscii pragma.directive with
  | "components" => switchComponents pragma.span pragma.options
  | "speaker" =>
    match pragma.options.head? with
    | some "single" => setSingleSpeaker true
    | some "multi" => setSingleSpeaker false
    | _ => reportWarning pragma.span "speaker pragma expects 'single' or 'multi'"
  | "whitespace" | "white-space" => setSpacing pragma.span (pragma.options.headD "")
  | other => reportWarning pragma.span ("Unknown pragma '" ++ other ++ "'")

/-! ## Stylesheets -/

/-- Adds the stylesheet that a body holds. -/
def addStylesheet (element : Element) : Evaluate Unit :=
  match Stylesheet.read element.body.plainText with
  | .ok sheet => modify fun state => { state with stylesheet := state.stylesheet.merge sheet }
  | .error error => reportError element.span error.message

/-- A tag stands for a stylesheet. -/
def isStylesheet (registry : Registry) (tag : String) : Bool :=
  (registry.lookup tag).any fun component => component.kind = .stylesheet

mutual

/-- Adds all stylesheets of a file, wherever they stand. -/
def addStylesheets (registry : Registry) : List Content → Evaluate Unit
  | [] => return ()
  | content :: rest => do
    addStylesheetsOf registry content
    addStylesheets registry rest

/-- Adds the stylesheets of some content. -/
def addStylesheetsOf (registry : Registry) : Content → Evaluate Unit
  | .element ⟨opening, body, closing, span⟩ =>
    if isStylesheet registry opening.name then addStylesheet ⟨opening, body, closing, span⟩
    else addStylesheetsIn registry body
  | _ => return ()

/-- Adds the stylesheets of a body. -/
def addStylesheetsIn (registry : Registry) : Body → Evaluate Unit
  | .children contents => addStylesheets registry contents
  | _ => return ()

end

/-! ## Elements -/

/-- The component of an element. Unknown tags are reported and stand for the generic one. -/
def resolveElement (element : Element) : Evaluate Component := do
  match (← get).registry.lookup element.name with
  | some component => return component
  | none =>
    reportAll [⟨element.opening.nameSpan, .information, .evaluate,
      "Unknown component <" ++ element.name ++ ">; its content is rendered as is"⟩]
    return genericComponent

/-- The condition of an element holds. Anything but a truth value is reported. -/
def conditionHolds (settings : Settings) (element : Element) : Evaluate Bool := do
  match element.attribute? "if" with
  | none => return true
  | some pair =>
    match ← attributeValue settings true pair with
    | none => return false
    | some (.bool holds) => return holds
    | some other =>
      reportError (valueSpan pair) ("if expects a boolean, found " ++ other.typeName)
      return false

/-- The component of an element with its props and what it contains. -/
def buildNode (settings : Settings) (component : Component) (element : Element)
    (body : Evaluate (List ComponentChild)) : Evaluate (List ComponentChild) := do
  let props ← elementProps settings component element
  let children ← body
  let isMedia := component.kind = .image || component.kind = .audio
  let props ← if isMedia then embedMedia settings element props else pure props
  return [.node ⟨component, element.name, props, children, element.span⟩]

/-- What an element stands for once; `file` evaluates documents, `body` what the element
contains. -/
def expandOnce (settings : Settings) (file : Root → Evaluate (List ComponentChild))
    (component : Component) (element : Element) (body : Evaluate (List ComponentChild)) :
    Evaluate (List ComponentChild) := do
  if ← conditionHolds settings element then
    match component.kind with
    | .binding =>
      evaluateBinding settings element body
      return []
    | .inclusion => lending (evaluateInclude settings file element)
    | .outputSchema =>
      evaluateSchema settings false element
      return []
    | .toolDefinition =>
      evaluateSchema settings true element
      return []
    | .runtime =>
      evaluateRuntime settings element.opening.attributes
      return []
    | .stylesheet => return []
    | _ => buildNode settings component element body
  else return []

/-! ## Loops -/

/-- What is known about an item of a loop. -/
def loopValue (index length : Nat) : Value :=
  .object [("index", .number (Float.ofNat index)), ("length", .number (Float.ofNat length)),
    ("first", .bool (index = 0)), ("last", .bool (index + 1 = length))]

/-- The frame of an item of a loop. -/
def loopFrame (iterator : String) (item : Value) (index length : Nat) : Frame :=
  Fields.insertAll [] [(iterator, item), ("loop", loopValue index length)]

/-- A step for each item of a loop, from the item at `index` on. -/
def forEach (iterator : String) (length : Nat) (step : Evaluate (List ComponentChild)) :
    Nat → List Value → Evaluate (List ComponentChild)
  | _, [] => return []
  | index, item :: rest => do
    let first ← lending do
      let item ← identified item
      inFrame (loopFrame iterator item index length) step
    return first ++ (← forEach iterator length step (index + 1) rest)

/-- The items that an element is repeated for; faults are reported. -/
def loopItems (settings : Settings) (iterator : ForIterator) : Evaluate (List Value) := do
  match ← evaluateAttribute settings iterator.collection iterator.collectionSpan with
  | none => return []
  | some (.array items) => return items
  | some other =>
    reportError iterator.collectionSpan
      ("for expects an array, but '" ++ iterator.collection ++ "' is " ++ other.typeName)
    return []

/-- What an element stands for; `file` evaluates documents, `body` what the element contains. A
quoted value of `for` that is no iterator has been reported by the parser. -/
def expandElement (settings : Settings) (file : Root → Evaluate (List ComponentChild))
    (element : Element) (body : Evaluate (List ComponentChild)) :
    Evaluate (List ComponentChild) := do
  let component ← resolveElement element
  let once := expandOnce settings file component element body
  match element.attribute? "for" with
  | none => once
  | some pair =>
    match pair.value with
    | some (.forIterator iterator) =>
      let items ← loopItems settings iterator
      forEach iterator.iterator items.length once 0 items
    | some (.quoted _) => return []
    | _ =>
      reportError pair.span "for expects a value of the form 'item in expression'"
      return []

/-! ## Contents -/

/-- The text of a template. -/
def evaluateTemplate (settings : Settings) (template : Template) :
    Evaluate (List ComponentChild) := do
  if template.expression.isEmpty then return []
  else
    match ← evaluateReported settings .template template.expression template.span with
    | none => return []
    | some value => return [.text ⟨value.stringify, template.span, false⟩]

mutual

/-- What some contents stand for, `expand` saying what elements stand for. -/
def walkContents (settings : Settings)
    (expand : Element → Evaluate (List ComponentChild) → Evaluate (List ComponentChild)) :
    List Content → Evaluate (List ComponentChild)
  | [] => return []
  | content :: rest => do
    let first ← walkContent settings expand content
    return first ++ (← walkContents settings expand rest)

/-- What some content stands for. -/
def walkContent (settings : Settings)
    (expand : Element → Evaluate (List ComponentChild) → Evaluate (List ComponentChild)) :
    Content → Evaluate (List ComponentChild)
  | .text node => return [.text ⟨node.value, node.span, true⟩]
  | .template node => evaluateTemplate settings node
  | .comment _ => return []
  | .pragma node => do
    applyPragma node
    return []
  | .element ⟨opening, body, closing, span⟩ =>
    expand ⟨opening, body, closing, span⟩ (walkBody settings expand body)

/-- What a body stands for. Bindings in it end with it. -/
def walkBody (settings : Settings)
    (expand : Element → Evaluate (List ComponentChild) → Evaluate (List ComponentChild)) :
    Body → Evaluate (List ComponentChild)
  | .selfClosing => return []
  | .literal text => return [.text ⟨text.value, text.span, true⟩]
  | .children contents => inFrame [] (walkContents settings expand contents)

end

/-- What a document stands for; `file` evaluates the documents that it includes. -/
def evaluateRoot (settings : Settings) (file : Root → Evaluate (List ComponentChild))
    (root : Root) : Evaluate (List ComponentChild) := do
  addStylesheets (← get).registry root.children
  inFrame [] (walkContents settings (expandElement settings file) root.children)

/-- What a document stands for, with at most `depth` files below one another in it. -/
def evaluateFile (settings : Settings) : Nat → Root → Evaluate (List ComponentChild)
  | 0, _ => return []
  | depth + 1, root => evaluateRoot settings (evaluateFile settings depth) root

end Evaluate

/-! ## Documents -/

/-- What a document evaluates to. -/
structure Evaluation where
  tree : ComponentNode
  trace : Trace
  /-- The history behind the trace. -/
  events : List TraceEvent
  schema : Schema.Outcome
  diagnostics : List Diagnostic
  singleSpeaker : Bool
  /-- The paths of the files asked for, the last one first. -/
  asked : List String
  /-- What happens to files and declarations, in order. -/
  occurrences : List Occurrence

/-- The root of a document: its own one when there is nothing besides, a new one otherwise. -/
def documentNode (children : List ComponentChild) (span : Span) : ComponentNode :=
  (soleDocument? children).getD ⟨rootComponent, rootComponent.name, [], children, span⟩

/-- Evaluates a document in a scope. -/
def evaluateDocument (settings : Settings) (loader : Loader) (scope : Scope) (root : Root) :
    Evaluation :=
  let start := EvaluationState.start settings scope loader settings.registry
  let (children, final) := (Evaluate.evaluateFile settings (loader.depthLimit + 1) root).run start
  ⟨documentNode children root.span, final.trace, final.events, final.schema.outcome,
    final.diagnostics, final.singleSpeaker, final.asked, final.occurrences.reverse⟩

end PromptMarkup
