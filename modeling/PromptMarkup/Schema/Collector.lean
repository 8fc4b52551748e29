/-
**What a document declares.**

Documents declare a schema of the response, tools and runtime parameters. One error in a schema
withholds the schema and the tools, while the document is still rendered.

* `Declaration`: what an element declares;
* `Collector`: the declarations met so far;
* `Collector.setResponse`, `Collector.addTool`, `Collector.addRuntime`, `Collector.fail`: one more
  declaration, or an error in one; `Collector.add` is one of them;
* `Collector.absorb`: the declarations of an included document;
* `Collector.outcome`: what is handed out in the end.
-/

import PromptMarkup.Markup.Name
import PromptMarkup.Schema.Declaration
import PromptMarkup.Schema.Validation
import PromptMarkup.Source.Diagnostic

namespace PromptMarkup.Schema

/-- A tool that a model may call. -/
structure ToolDefinition where
  name : String
  description : Option String
  parameters : SchemaDocument

/-- A tool as JSON. -/
def ToolDefinition.toJson (tool : ToolDefinition) : Json :=
  .object ([("type", .string "function"), ("name", .string tool.name)]
    ++ (tool.description.elim [] fun text => [("description", .string text)])
    ++ [("parameters", tool.parameters.json)])

/-- Everything that a document declares. -/
structure Outcome where
  responseSchema : Option SchemaDocument
  tools : List ToolDefinition
  runtime : List (String × Json)

/-- What a document declares, as JSON without the parts that are empty. -/
def Outcome.toJson (outcome : Outcome) : Json :=
  .object ((outcome.responseSchema.elim [] fun schema => [("response_schema", schema.json)])
    ++ (if outcome.tools.isEmpty then []
      else [("tools", .array (outcome.tools.map ToolDefinition.toJson))])
    ++ (if outcome.runtime.isEmpty then [] else [("runtime", .object outcome.runtime)]))

/-- What an element declares, as it is met. -/
inductive Declaration where
  /-- The declaration is in error for a reason given in words. -/
  | refused (message : String)
  | response (schema : SchemaDocument)
  | tool (name description : Option String) (parameters : SchemaDocument)
  | parameter (key : String) (value : Value)

/-- The declarations met so far, and whether there has been an error in one. -/
structure Collector where
  responseSchema : Option SchemaDocument
  tools : List ToolDefinition
  runtime : List (String × Json)
  failed : Bool

namespace Collector

/-- No declarations. -/
def empty : Collector := ⟨none, [], [], false⟩

/-- An error in a declaration. -/
def fail (collector : Collector) (span : Span) (message : String) :
    Collector × List Diagnostic :=
  ({ collector with failed := true }, [.error .schema span message])

/-- The words for a second schema of the response. -/
def secondSchemaMessage : String :=
  "Multiple output schemas declared; only one is allowed per document"

/-- The schema of the response, of which there may be only one. -/
def setResponse (collector : Collector) (schema : SchemaDocument) (span : Span) :
    Collector × List Diagnostic :=
  if collector.responseSchema.isSome then collector.fail span secondSchemaMessage
  else ({ collector with responseSchema := some schema }, [])

/-- One more tool; it has to have a name. -/
def addTool (collector : Collector) (name description : Option String)
    (parameters : SchemaDocument) (span : Span) : Collector × List Diagnostic :=
  let name := (name.map Text.trimmed).getD ""
  if name.isEmpty then collector.fail span "Tool definition requires a non-empty name"
  else ({ collector with tools := collector.tools ++ [⟨name, description, parameters⟩] }, [])

/-- One more runtime parameter. -/
def addRuntime (collector : Collector) (key : String) (value : Value) : Collector :=
  { collector with
    runtime := Fields.insert (Markup.camelCase key) (coerceParameter value) collector.runtime }

/-- One more declaration of an element at a range. -/
def add (collector : Collector) (span : Span) : Declaration → Collector × List Diagnostic
  | .refused message => collector.fail span message
  | .response schema => collector.setResponse schema span
  | .tool name description parameters => collector.addTool name description parameters span
  | .parameter key value => (collector.addRuntime key value, [])

/-- The declarations of an included document besides. -/
def absorb (collector other : Collector) (span : Span) : Collector × List Diagnostic :=
  let joined := { collector with failed := collector.failed || other.failed }
  let (joined, diagnostics) := match other.responseSchema with
    | some schema => joined.setResponse schema span
    | none => (joined, [])
  ({ joined with
    tools := joined.tools ++ other.tools
    runtime := Fields.insertAll joined.runtime other.runtime }, diagnostics)

/-- What is handed out in the end. -/
def outcome (collector : Collector) : Outcome :=
  if collector.failed then ⟨none, [], collector.runtime⟩
  else ⟨collector.responseSchema, collector.tools, collector.runtime⟩

end Collector

end PromptMarkup.Schema
