/-
**Including documents.**

An included document is evaluated on its own, with everything that can be seen at the include as
its context. What it brings in is moved to the range of the include.

* `includeSeed`: the context of an included document;
* `evaluateInclude`: the content of an included document.
-/

import PromptMarkup.Evaluation.Binding
import PromptMarkup.Evaluation.Declaration
import PromptMarkup.Markup.Document

namespace PromptMarkup.Evaluate

open Markup

/-! ## Context -/

/-- Everything that can be seen, and the bindings that an attribute gives on top; none when that
attribute has no object. -/
def includeSeed (settings : Settings) (element : Element) : Evaluate (Option Frame) := do
  let seed := (← get).scope.flatten
  match element.attribute? "context" with
  | none => return some seed
  | some pair =>
    match ← attributeValue settings false pair with
    | none => return none
    | some value =>
      match ← identified value with
      | .object fields => return some (Fields.insertAll seed fields)
      | other =>
        reportError (valueSpan pair)
          ("include context must be an object, found " ++ other.typeName)
        return none

/-! ## Content -/

/-- The content of a file without the root of a document around it. -/
def withoutDocument (children : List ComponentChild) : List ComponentChild :=
  ((soleDocument? children).map ComponentNode.children).getD children

/-- A diagnostic of another file, moved to a range. -/
def moveDiagnostic (anchor : Span) (file : String) (diagnostic : Diagnostic) : Diagnostic :=
  { diagnostic with span := anchor, message := file ++ ": " ++ diagnostic.message }

/-- The state at the start of an included file. The files being included, the identities given away,
the files asked for and what has happened are those of the whole run; everything else starts
anew. -/
def nestedStart (settings : Settings) (seed : Frame) (outer : EvaluationState) :
    EvaluationState :=
  { EvaluationState.start settings (.ofFrame seed) outer.loader outer.registry with
    nextBuilder := outer.nextBuilder
    asked := outer.asked
    occurrences := outer.occurrences }

/-- The state behind an included file, as far as that changes it where the file has been
included. -/
def nestedEnd (final outer : EvaluationState) : EvaluationState :=
  { outer with
    loader := final.loader
    nextBuilder := final.nextBuilder
    asked := final.asked
    occurrences := final.occurrences }

/-- Evaluates a file as a document of its own. -/
def runNested (settings : Settings) (seed : Frame) (step : Evaluate (List ComponentChild)) :
    Evaluate (List ComponentChild × EvaluationState) := do
  let outer ← get
  let (children, final) := step.run (nestedStart settings seed outer)
  set (nestedEnd final outer)
  return (children, final)

/-- Takes over what an included file has recorded, reported and declared. -/
def absorbNested (element : Element) (anchor : Span) (file : String) (nested : EvaluationState) :
    Evaluate Unit := do
  reportAll (nested.diagnostics.map (moveDiagnostic anchor file))
  modify fun state => { state with
    trace := state.trace.absorb nested.trace element.span
    events := state.events ++ [TraceEvent.included element.span nested.events] }
  collect fun collector => collector.absorb nested.schema element.span
  modify fun state => { state with singleSpeaker := state.singleSpeaker || nested.singleSpeaker }

/-- The content of a file that is entered already; `file` evaluates documents. -/
def includeText (settings : Settings) (file : Root → Evaluate (List ComponentChild))
    (element : Element) (anchor : Span) (seed : Frame) (path text : String) :
    Evaluate (List ComponentChild) := do
  let parsed := parse settings.literalTags text
  reportAll (parsed.diagnostics.map (moveDiagnostic anchor path))
  let (children, nested) ← runNested settings seed (file parsed.root)
  leaveFile
  absorbNested element anchor path nested
  return reanchorChildren element.span (withoutDocument children)

/-- The content of the file at a path. -/
def includePath (settings : Settings) (file : Root → Evaluate (List ComponentChild))
    (element : Element) (anchor : Span) (seed : Frame) (path : String) :
    Evaluate (List ComponentChild) := do
  match (← get).loader.enter path with
  | .error error =>
    reportError anchor error.message
    return []
  | .ok loader =>
    moveTo loader
    match ← readFile anchor path with
    | none =>
      leaveFile
      return []
    | some text => includeText settings file element anchor seed path text

/-- Evaluates an element that includes a document; `file` evaluates documents. -/
def evaluateInclude (settings : Settings) (file : Root → Evaluate (List ComponentChild))
    (element : Element) : Evaluate (List ComponentChild) := do
  match element.attribute? "src" with
  | none =>
    reportError element.opening.span "include requires a src attribute"
    return []
  | some pair =>
    match ← attributeText settings element "src" with
    | none => return []
    | some source =>
      match ← includeSeed settings element with
      | none => return []
      | some seed =>
        let path := (← get).loader.resolve source
        includePath settings file element (valueSpan pair) seed path

end PromptMarkup.Evaluate
