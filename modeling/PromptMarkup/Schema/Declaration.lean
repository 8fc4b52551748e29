/-
**Declarations of schemas and runtime parameters.**

The body of a schema declaration is JSON with templates in it, or an expression.

* `SchemaParser`: how a body is read;
* `declaredExpression`: the expression that a body is;
* `bodyParts`, `interpolate`: the templates of a JSON body, and the body with their values;
* `coerceParameter`: the JSON value that a runtime parameter stands for.
-/

import PromptMarkup.Block.Style
import PromptMarkup.Expr.Error
import PromptMarkup.Json.Reader
import PromptMarkup.Source.Span
import PromptMarkup.Text.Cut
import PromptMarkup.Value.Basic

namespace PromptMarkup.Schema

open Text

/-! ## Parsers -/

/-- How the body of a schema declaration is read. -/
inductive SchemaParser where
  | json
  | eval
  /-- As JSON when the body begins like an object, as an expression otherwise. -/
  | auto
  deriving DecidableEq, Repr

namespace SchemaParser

/-- The parser that a text names. -/
def read (text : String) : Except UnknownName SchemaParser :=
  readName "parser" [("json", json), ("eval", eval), ("expr", eval), ("auto", auto), ("", auto)]
    text

/-- The parser for a body. -/
def resolve (parser : SchemaParser) (body : String) : SchemaParser :=
  match parser with
  | auto => if (trimStart body.toList).head? = some '\x7b' then json else eval
  | other => other

end SchemaParser

/-! ## Expressions -/

/-- The text behind a `return` that stands in front of an expression, without blanks in front. -/
def dropReturn (chars : List Char) : List Char :=
  match dropPrefix? "return".toList chars with
  | some rest =>
    if rest.head?.any fun char => isBlank char || char = '(' then trimStart rest else chars
  | none => chars

/-- The expression that a body is, and its offset in the body. A `return` in front and semicolons
at the end do not belong to it. -/
def declaredExpression (body : String) : String × Nat :=
  let chars := body.toList
  let start := dropReturn (trim chars)
  let offset := byteLength chars - byteLength (trimStart chars)
    + (byteLength (trim chars) - byteLength start)
  (String.ofList (trimEnd (trimEndBy (· = ';') (trimEnd start))), offset)

/-! ## Templates in JSON -/

/-- A part of a JSON body. -/
inductive BodyPart where
  | text (chars : List Char)
  /-- An expression with its range in the body. -/
  | template (expression : String) (span : Span)
  deriving DecidableEq, Repr

/-- The template with some text between its braces; the text starts at an offset. -/
def templatePart (offset : Nat) (inner : List Char) : BodyPart :=
  let expression := trim inner
  let start := offset + (byteLength inner - byteLength (trimStart inner))
  .template (String.ofList expression) ⟨start, start + byteLength expression⟩

/-- The first template of a text at an offset: what stands in front of it, what stands between its
braces, and what comes behind them. -/
def cutTemplate? (chars : List Char) : Option (List Char × List Char × List Char) := do
  let (before, rest) ← cutAt? ['\x7b', '\x7b'] chars
  let (inner, after) ← cutAt? ['\x7d', '\x7d'] rest
  return (before, inner, after)

theorem length_cutTemplate?_lt {chars before inner after : List Char}
    (found : cutTemplate? chars = some (before, inner, after)) : after.length < chars.length := by
  simp only [cutTemplate?, Option.bind_eq_bind, Option.bind_eq_some_iff] at found
  obtain ⟨⟨front, rest⟩, opened, ⟨middle, tail⟩, closed, same⟩ := found
  cases same
  have whole := congrArg List.length (eq_append_of_cutAt? opened)
  have rest := congrArg List.length (eq_append_of_cutAt? closed)
  simp only [List.length_append, List.length_cons, List.length_nil] at whole rest ⊢
  omega

/-- The parts of a body from an offset on. -/
def bodyPartsFrom (offset : Nat) (chars : List Char) : List BodyPart :=
  match _found : cutTemplate? chars with
  | none => [.text chars]
  | some (before, inner, after) =>
    let start := offset + byteLength before + 2
    .text before :: templatePart start inner
      :: bodyPartsFrom (start + byteLength inner + 2) after
termination_by chars.length
decreasing_by exact length_cutTemplate?_lt _found

/-- The parts of a body. -/
def bodyParts (body : String) : List BodyPart := bodyPartsFrom 0 body.toList

/-- The text that stands for a value in a JSON body. -/
def insertedText : Value → String
  | .string text => text
  | other => other.toJson.compress

/-- The text of a part of a body. -/
def partText {m : Type → Type} [Monad m] (evaluate : String → Span → m Value) :
    BodyPart → m String
  | .text chars => pure (String.ofList chars)
  | .template expression span => do return insertedText (← evaluate expression span)

/-- A body with the values of its templates, which are evaluated from front to back. -/
def interpolate {m : Type → Type} [Monad m] (evaluate : String → Span → m Value)
    (body : String) : m String := do
  return String.join (← (bodyParts body).mapM (partText evaluate))

/-! ## Runtime parameters -/

/-- The bound that whole numbers stay whole below. -/
def integerBound : Int := Nat.pow 2 63

/-- The whole number that a text writes out, if it is small enough to stay one. -/
def integerText? (chars : List Char) : Option Int :=
  let (negative, digits) := match chars with
    | '-' :: rest => (true, rest)
    | _ => (false, chars)
  if digits.isEmpty || !digits.all Char.isDigit then none
  else
    let magnitude : Int := Decimal.digitsValue digits
    let number := if negative then -magnitude else magnitude
    if -integerBound ≤ number && number < integerBound then some number else none

/-- A text that begins like a number. -/
def beginsNumber : List Char → Bool
  | '-' :: char :: _ => char.isDigit || char = '.'
  | char :: _ => char.isDigit || char = '.'
  | [] => false

/-- The number that a text writes out. -/
def numberText? (chars : List Char) : Option Json :=
  if beginsNumber chars then
    match integerText? chars with
    | some number => some (.integer number)
    | none => ((Decimal.readFloat? chars).filter Float.isFinite).map Json.float
  else none

/-- The string, array or object that a text writes out in JSON. -/
def structuredText? (chars : List Char) : Option Json :=
  if chars.head?.any fun char => char = '\x7b' || char = '[' || char = '"' then
    Json.read? (String.ofList chars)
  else none

/-- The JSON value that a runtime parameter stands for: texts are read where they write out a value
of another kind. -/
def coerceParameter (value : Value) : Json :=
  match value with
  | .string text =>
    let chars := trim text.toList
    match String.ofList chars with
    | "true" => .bool true
    | "false" => .bool false
    | _ => ((numberText? chars).or (structuredText? chars)).getD (.string text)
  | other => other.toJson

end PromptMarkup.Schema
