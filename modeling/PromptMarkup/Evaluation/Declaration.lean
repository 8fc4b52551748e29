/-
**Declarations in a document.**

* `declaredSchema`: the schema that an element declares;
* `evaluateSchema`: an element that declares the schema of the response or a tool;
* `evaluateRuntime`: an element that declares runtime parameters.
-/

import PromptMarkup.Evaluation.Attribute

namespace PromptMarkup

/-- Why an element declares no schema. -/
inductive DeclarationError where
  | empty
  | expression (error : ExprError)
  | template (error : ExprError)
  | notJson
  | schema (error : Schema.SchemaError)
  deriving DecidableEq, Repr

/-- The words for an element that declares no schema. -/
def DeclarationError.message : DeclarationError → String
  | empty => "Schema declaration is empty"
  | expression error => "Schema expression failed: " ++ error.message
  | template error => "Schema template failed: " ++ error.message
  | notJson => "Schema is not valid JSON: not a JSON text"
  | schema error => error.message

namespace Evaluate

open Markup
open Schema (SchemaDocument SchemaParser Collector)

/-! ## Collecting -/

/-- Changes the declarations. -/
def collect (step : Collector → Collector × List Diagnostic) : Evaluate Unit := do
  let state ← get
  let (collector, diagnostics) := step state.schema
  set { state with schema := collector, diagnostics := state.diagnostics ++ diagnostics }

/-- Takes up a declaration of an element at a range. -/
def declare (span : Span) (declaration : Schema.Declaration) : Evaluate Unit := do
  modify fun state => { state with occurrences := .declared declaration :: state.occurrences }
  collect fun collector => collector.add span declaration

/-- Reports an error in a declaration. -/
def failSchema (span : Span) (message : String) : Evaluate Unit := declare span (.refused message)

/-! ## Schemas -/

/-- The schema of a value or of JSON, with the cause when there is none. -/
def asDeclared (result : Except Schema.SchemaError SchemaDocument) :
    Except DeclarationError SchemaDocument :=
  match result with
  | .ok schema => .ok schema
  | .error error => .error (.schema error)

/-- The schema of a body that is an expression; the body starts at an offset. -/
def schemaOfExpression (settings : Settings) (body : String) (start : Nat) :
    Evaluate (Except DeclarationError SchemaDocument) := do
  let (expression, offset) := Schema.declaredExpression body
  let size := Text.byteLength expression.toList
  let span := ⟨start + offset, start + offset + size⟩
  match ← evaluateTraced settings .evalBlock expression span with
  | .ok value => return asDeclared (SchemaDocument.ofValue value)
  | .error error => return .error (.expression error)

/-- The schema of a body in JSON; the body starts at an offset. -/
def schemaOfJson (settings : Settings) (body : String) (start : Nat) :
    Evaluate (Except DeclarationError SchemaDocument) := do
  let evaluate := fun expression (span : Span) =>
    ExceptT.mk (evaluateTraced settings .template expression (span.shift start))
  match ← (Schema.interpolate evaluate body).run with
  | .error error => return .error (.template error)
  | .ok text =>
    match Json.read? text with
    | none => return .error .notJson
    | some json => return asDeclared (SchemaDocument.ofJson json)

/-- The body of a declaration and the range to report its faults at. -/
def declarationBody (element : Element) : String × Span :=
  match element.body with
  | .literal text => (text.value, text.span)
  | body => (body.plainText, element.bodySpan)

/-- The schema that an element declares; faults are reported. -/
def declaredSchema (settings : Settings) (element : Element) (parser : SchemaParser) :
    Evaluate (Option SchemaDocument) := do
  let (body, span) := declarationBody element
  if Text.isBlankText body then
    failSchema element.span DeclarationError.empty.message
    return none
  else
    let result ← match parser.resolve body with
      | .eval => schemaOfExpression settings body span.start
      | _ => schemaOfJson settings body span.start
    match result with
    | .ok schema => return some schema
    | .error error =>
      failSchema span error.message
      return none

/-- How an element wants its body to be read; faults are reported. -/
def declaredParser (settings : Settings) (element : Element) : Evaluate (Option SchemaParser) := do
  match ← attributeText settings element "parser" with
  | none => return some .auto
  | some text =>
    match SchemaParser.read text with
    | .ok parser => return some parser
    | .error unknown =>
      failSchema (attributeSpan element "parser" element.span) unknown.message
      return none

/-- Evaluates an element that declares the schema of the response, or a tool. -/
def evaluateSchema (settings : Settings) (isTool : Bool) (element : Element) : Evaluate Unit := do
  match ← declaredParser settings element with
  | none => return ()
  | some parser =>
    match ← declaredSchema settings element parser with
    | none => return ()
    | some schema =>
      if isTool then
        let name ← attributeText settings element "name"
        let description ← attributeText settings element "description"
        declare element.span (.tool name description schema)
      else declare element.span (.response schema)

/-! ## Runtime parameters -/

/-- Evaluates attributes that are runtime parameters. -/
def evaluateRuntime (settings : Settings) : List Attribute → Evaluate Unit
  | [] => return ()
  | pair :: rest => do
    unless isDirective pair.key do
      match ← attributeValue settings false pair with
      | none => pure ()
      | some value => declare pair.span (.parameter pair.key value)
    evaluateRuntime settings rest

end Evaluate

end PromptMarkup
