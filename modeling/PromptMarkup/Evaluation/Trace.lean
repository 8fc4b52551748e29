/-
**The trace of a run.**

Every evaluation of an expression is recorded under its range, its text and its kind. Repeated
evaluations, as in loops, add to the values of one record.

* `TraceEvent`: what happens to expressions one by one;
* `Trace.record`: one more evaluation;
* `Trace.absorb`: the trace of an included file, moved to the range of the include;
* `Trace.touching`, `Trace.within`: the records around an offset and inside a range.
-/

import PromptMarkup.Json.Basic
import PromptMarkup.Source.Span

namespace PromptMarkup

/-- Where an expression stands. -/
inductive TraceKind where
  | template
  | attributeExpression
  /-- The body of a schema that is an expression. -/
  | evalBlock
  deriving DecidableEq, Repr

/-- The word for the place of an expression. -/
def TraceKind.name : TraceKind → String
  | template => "template"
  | attributeExpression => "attribute-expression"
  | evalBlock => "eval-block"

/-- What an evaluation came to. -/
inductive TraceValue where
  | value (json : Json)
  | error (message : String)

/-- What an evaluation came to, as JSON. -/
def TraceValue.toJson : TraceValue → Json
  | value json => .object [("value", json)]
  | error message => .object [("error", .string message)]

/-- What happens to the expressions of a file. -/
inductive TraceEvent where
  | evaluated (span : Span) (expression : String) (kind : TraceKind) (value : TraceValue)
  /-- A file is included at a range, with what happens in it. -/
  | included (span : Span) (events : List TraceEvent)

/-- All evaluations of an expression, in the order they happened in. -/
structure TraceRecord where
  span : Span
  expression : String
  kind : TraceKind
  values : List TraceValue

/-- A range as JSON. -/
def Span.toJson (span : Span) : Json :=
  .object [("start", .integer span.start), ("end", .integer span.stop)]

namespace TraceRecord

/-- A record is that of an expression. -/
def isOf (record : TraceRecord) (span : Span) (expression : String) (kind : TraceKind) : Bool :=
  record.span = span && record.kind = kind && record.expression = expression

/-- A record as JSON. -/
def toJson (record : TraceRecord) : Json :=
  .object [("span", record.span.toJson), ("expression", .string record.expression),
    ("kind", .string record.kind.name), ("values", .array (record.values.map TraceValue.toJson))]

end TraceRecord

/-- The records of a run, in the order of their first evaluations. -/
structure Trace where
  records : List TraceRecord

namespace Trace

/-- The trace of nothing. -/
def empty : Trace := ⟨[]⟩

/-- Records with one more evaluation. -/
def addTo (span : Span) (expression : String) (kind : TraceKind) (value : TraceValue) :
    List TraceRecord → List TraceRecord
  | [] => [⟨span, expression, kind, [value]⟩]
  | record :: rest =>
    if record.isOf span expression kind then
      { record with values := record.values ++ [value] } :: rest
    else record :: addTo span expression kind value rest

/-- A trace with one more evaluation. -/
def record (trace : Trace) (span : Span) (expression : String) (kind : TraceKind)
    (value : TraceValue) : Trace :=
  ⟨addTo span expression kind value trace.records⟩

/-- A trace with the evaluations of another one, all moved to a range. -/
def absorb (trace other : Trace) (span : Span) : Trace :=
  other.records.foldl (fun trace record =>
    record.values.foldl (fun trace value => trace.record span record.expression record.kind value)
      trace) trace

/-- The records that touch an offset, the shortest first. -/
def touching (trace : Trace) (offset : Nat) : List TraceRecord :=
  (trace.records.filter fun record => record.span.touches offset).mergeSort
    fun first second => first.span.length ≤ second.span.length

/-- The records inside a range. -/
def within (trace : Trace) (span : Span) : List TraceRecord :=
  trace.records.filter fun record => span.containsSpan record.span

/-- A trace as JSON. -/
def toJson (trace : Trace) : Json :=
  .object [("records", .array (trace.records.map TraceRecord.toJson))]

end Trace

end PromptMarkup
