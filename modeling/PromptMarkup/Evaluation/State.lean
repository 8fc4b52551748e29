/-
**The state of an evaluation.**

Evaluation walks a document and never stops at a fault: faults become diagnostics, and what has
failed is left out.

* `Settings`: what holds for a document and everything it includes;
* `Occurrence`: what happens to the files and the declarations of a run;
* `EvaluationState`, `Evaluate`: what changes on the way, and a step of the way;
* `evaluateTraced`, `evaluateReported`: the value of an expression, which is put on record;
* `inFrame`, `bindName`: scopes;
* `lending`: a step that binds names which are gone behind it.
-/

import PromptMarkup.Component.Registry
import PromptMarkup.Component.Stylesheet
import PromptMarkup.Evaluation.Trace
import PromptMarkup.Expr.Evaluate
import PromptMarkup.Files.Loader
import PromptMarkup.Schema.Collector
import PromptMarkup.Scope
import PromptMarkup.Value.Basic

namespace PromptMarkup

/-- What holds for a document and everything it includes. -/
structure Settings where
  registry : Registry
  functions : Expr.FunctionTable
  literalTags : Markup.LiteralTags
  stylesheet : Stylesheet
  /-- Media files are read and put into the document. -/
  embedMedia : Bool

/-- The settings that hold unless others are given. -/
def Settings.standard : Settings := ⟨.standard, .standard, .standard, .empty, true⟩

/-- What happens to the files and the declarations of a run. -/
inductive Occurrence where
  /-- Other files are being included than before, the innermost first. -/
  | including (files : List String)
  | declared (declaration : Schema.Declaration)

/-- What changes while a file is evaluated. -/
structure EvaluationState where
  scope : Scope
  loader : Loader
  registry : Registry
  stylesheet : Stylesheet
  trace : Trace
  /-- The history behind the trace, which nothing looks at. -/
  events : List TraceEvent
  diagnostics : List Diagnostic
  schema : Schema.Collector
  /-- The whole document is one message. -/
  singleSpeaker : Bool
  /-- The identity of the next builder that is bound to a name. -/
  nextBuilder : Nat
  /-- The paths of the files asked for, the last one first. -/
  asked : List String
  /-- What has happened in the whole run, the last first, which nothing looks at. -/
  occurrences : List Occurrence

/-- The state at the start of a file. -/
def EvaluationState.start (settings : Settings) (scope : Scope) (loader : Loader)
    (registry : Registry) : EvaluationState :=
  ⟨scope, loader, registry, settings.stylesheet, .empty, [], [], .empty, false, 0, [], []⟩

/-- A step of an evaluation. -/
abbrev Evaluate (α : Type) := StateM EvaluationState α

namespace Evaluate

/-! ## Diagnostics -/

/-- Reports diagnostics. -/
def reportAll (diagnostics : List Diagnostic) : Evaluate Unit :=
  modify fun state => { state with diagnostics := state.diagnostics ++ diagnostics }

/-- Reports an error of the evaluation. -/
def reportError (span : Span) (message : String) : Evaluate Unit :=
  reportAll [.error .evaluate span message]

/-- Reports a warning of the evaluation. -/
def reportWarning (span : Span) (message : String) : Evaluate Unit :=
  reportAll [.warning .evaluate span message]

/-! ## Expressions -/

/-- The functions that an expression sees: the bodies of schemas may build schemas besides. -/
def functionsFor (settings : Settings) (kind : TraceKind) : Expr.FunctionTable :=
  match kind with
  | .evalBlock => settings.functions.withSchemas
  | _ => settings.functions

/-- The record of what an evaluation came to. -/
def traceValue : Except ExprError Value → TraceValue
  | .ok value => .value value.toJson
  | .error error => .error error.message

/-- The value of an expression at a range, which is put on record. Faults are not reported. -/
def evaluateTraced (settings : Settings) (kind : TraceKind) (expression : String) (span : Span) :
    Evaluate (Except ExprError Value) := do
  let state ← get
  let environment := ⟨functionsFor settings kind, fun name => state.scope.get? name⟩
  let result := Expr.run environment expression
  set { state with
    trace := state.trace.record span expression kind (traceValue result)
    events := state.events ++ [TraceEvent.evaluated span expression kind (traceValue result)] }
  return result

/-- The value of an expression at a range, of which faults are reported. -/
def evaluateReported (settings : Settings) (kind : TraceKind) (expression : String)
    (span : Span) : Evaluate (Option Value) := do
  match ← evaluateTraced settings kind expression span with
  | .ok value => return some value
  | .error error =>
    reportError span error.message
    return none

/-! ## Scopes -/

/-- A value whose builders can be told apart. -/
def identified (value : Value) : Evaluate Value :=
  modifyGet fun state =>
    let (value, next) := value.identify state.nextBuilder
    (value, { state with nextBuilder := next })

/-- Binds a name in the innermost frame. -/
def bindName (name : String) (value : Value) : Evaluate Unit := do
  let value ← identified value
  modify fun state => { state with scope := state.scope.set name value }

/-- A step behind which no value is left that a name has been bound to in it, so that the
identities given away in it are free again. -/
def lending {α : Type} (step : Evaluate α) : Evaluate α := do
  let before ← get
  let result ← step
  modify fun state => { state with nextBuilder := before.nextBuilder }
  return result

/-- A step inside a new frame. -/
def inFrame {α : Type} (frame : Frame) (step : Evaluate α) : Evaluate α := lending do
  modify fun state => { state with scope := state.scope.push frame }
  let result ← step
  modify fun state => { state with scope := state.scope.pop }
  return result

/-! ## Files -/

/-- Notes that a file is asked for. -/
def ask (path : String) : Evaluate Unit :=
  modify fun state => { state with asked := path :: state.asked }

/-- Changes the files being included. -/
def moveTo (loader : Loader) : Evaluate Unit :=
  modify fun state => { state with
    loader := loader
    occurrences := .including loader.including :: state.occurrences }

/-- Leaves the innermost file being included. -/
def leaveFile : Evaluate Unit := do
  moveTo (← get).loader.leave

end Evaluate

end PromptMarkup
