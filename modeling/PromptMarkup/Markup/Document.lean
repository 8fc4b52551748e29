/-
**From pieces to a document.**

Elements are put together from pieces with a list of the elements that are open. Whatever is
malformed is reported and kept: a close tag that does not match becomes text, an element that is
still open at the end is closed there, and an element inside `elementDepthLimit` others is kept as
text.

* `OpenElement`: an element whose close tag has not come yet;
* `assemble`: the contents that pieces make up;
* `parse`: the tree of a source with its diagnostics;
* `parseStrict`, `parseBytes`: a source that has to be free of errors, and one given as bytes.
-/

import PromptMarkup.Markup.Lexer
import PromptMarkup.Markup.Piece
import PromptMarkup.Source.Lines
import PromptMarkup.Text.Utf8

namespace PromptMarkup.Markup

/-! ## Open elements -/

/-- An element whose close tag has not come yet: its open tag, where that ends, and the contents
so far, last one first. -/
structure OpenElement where
  tag : OpenTag
  bodyStart : Nat
  contents : List Content

/-- The contents read so far: the open elements, innermost first, and the contents of the document
around them, last one first. -/
structure Assembly where
  opened : List OpenElement
  contents : List Content

/-- Some content added to the innermost open element. -/
def Assembly.add (assembly : Assembly) (content : Content) : Assembly :=
  match assembly.opened with
  | [] => { assembly with contents := content :: assembly.contents }
  | innermost :: outer =>
    { assembly with
      opened := { innermost with contents := content :: innermost.contents } :: outer }

/-- The element that an open element becomes with its close tag, or without one. -/
def OpenElement.finish (element : OpenElement) (closing : Option CloseTag) : Element :=
  let stop := match closing with
    | some tag => tag.span.stop
    | none => element.contents.head?.elim element.bodyStart fun content => content.span.stop
  { opening := element.tag
    body := .children element.contents.reverse
    closing := closing
    span := ⟨element.tag.span.start, max stop element.tag.span.stop⟩ }

/-- The innermost element closed; nothing happens when none is open. -/
def Assembly.close (assembly : Assembly) (closing : Option CloseTag) : Assembly :=
  match assembly.opened with
  | [] => assembly
  | innermost :: outer =>
    { assembly with opened := outer }.add (.element (innermost.finish closing))

/-- All open elements closed at the end of the document, innermost first, with the problems that
they were not closed; `pending` is added to the innermost one. -/
def finishAll (pending contents : List Content) : List OpenElement → List Content × List Diagnostic
  | [] => ((pending ++ contents).reverse, [])
  | innermost :: outer =>
    let whole := { innermost with contents := pending ++ innermost.contents }
    let (all, problems) := finishAll [.element (whole.finish none)] contents outer
    (all, (Problem.neverClosed innermost.tag.name).report innermost.tag.nameSpan :: problems)

/-! ## Elements that nest too deeply -/

/-- What is passed over of an element that nests too deeply. -/
structure Skipped where
  source : String
  stop : Nat
  problems : List Diagnostic
  rest : List Piece

/-- The number of elements left open behind a piece. -/
def openBehind (count : Nat) : PieceForm → Nat
  | .opening _ .close => count + 1
  | .opening _ _ => count
  | .closing _ => count - 1
  | .literal _ _ none => count + 1
  | .literal _ _ (some _) => count
  | .leaf _ => count

/-- The problems of a piece that is passed over: only those of tags. -/
def problemsInside (piece : Piece) : List Diagnostic :=
  match piece.form with
  | .leaf _ => []
  | _ => piece.problems

/-- The pieces up to the one behind which no element is open any more; `count` are open so far. -/
def skipElement (count stop : Nat) : List Piece → Skipped
  | [] => ⟨"", stop, [], []⟩
  | piece :: rest =>
    let count := openBehind count piece.form
    let others := if count = 0 then ⟨"", piece.span.stop, [], rest⟩
      else skipElement count piece.span.stop rest
    { others with
      source := piece.source ++ others.source
      problems := problemsInside piece ++ others.problems }

theorem skipElement_length_le (count stop : Nat) (all : List Piece) :
    (skipElement count stop all).rest.length ≤ all.length := by
  induction all generalizing count stop with
  | nil => simp [skipElement]
  | cons piece rest ih =>
    simp only [skipElement]
    split
    · simp
    · exact Nat.le_succ_of_le (ih _ _)

theorem skipElement_length_lt (count stop : Nat) (piece : Piece) (rest : List Piece) :
    (skipElement count stop (piece :: rest)).rest.length < (piece :: rest).length := by
  simp only [skipElement]
  split
  · simp
  · exact Nat.lt_succ_of_le (skipElement_length_le _ _ _)

/-! ## Assembling -/

/-- A piece added to the contents, with the problems it makes. An open tag that nests too deeply
is not among the pieces added. -/
def Assembly.step (assembly : Assembly) (piece : Piece) : Assembly × List Diagnostic :=
  match piece.form with
  | .leaf content => (assembly.add content, piece.problems)
  | .literal tag body closing =>
    let stop := closing.elim body.span.stop fun close => close.span.stop
    let element := ⟨tag, .literal body, closing, ⟨tag.span.start, stop⟩⟩
    let unclosed :=
      if closing.isNone then [(Problem.literalNeverClosed tag.name).report tag.nameSpan] else []
    (assembly.add (.element element), piece.problems ++ unclosed)
  | .opening tag .selfClose =>
    let element := ⟨tag, .selfClosing, none, ⟨tag.span.start, piece.span.stop⟩⟩
    (assembly.add (.element element), piece.problems)
  | .opening tag .missing =>
    (assembly.add (.element ⟨tag, .children [], none, tag.span⟩),
      piece.problems ++ [(Problem.unterminatedOpen tag.name).report tag.span])
  | .opening tag .close =>
    ({ assembly with opened := ⟨tag, piece.span.stop, []⟩ :: assembly.opened }, piece.problems)
  | .closing tag =>
    let text := .text ⟨piece.source, tag.span⟩
    match assembly.opened with
    | [] => (assembly.add text, piece.problems ++ [(Problem.strayClose tag.name).report tag.span])
    | innermost :: _ =>
      if Text.equalIgnoringCase innermost.tag.name tag.name then
        (assembly.close (some tag), piece.problems)
      else
        (assembly.add text,
          piece.problems
            ++ [(Problem.mismatchedClose tag.name innermost.tag.name).report tag.span])

/-- A piece begins an element. -/
def Piece.opensElement (piece : Piece) : Bool :=
  match piece.form with
  | .opening _ _ => true
  | .literal _ _ _ => true
  | _ => false

/-- The contents that pieces make up behind those assembled so far, with all problems. -/
def assemble (assembly : Assembly) (all : List Piece) : List Content × List Diagnostic :=
  match all with
  | [] => finishAll [] assembly.contents assembly.opened
  | piece :: rest =>
    if piece.opensElement ∧ elementDepthLimit ≤ assembly.opened.length then
      let skipped := skipElement 0 piece.span.start (piece :: rest)
      let span := ⟨piece.span.start, skipped.stop⟩
      let bracket := ⟨piece.span.start, piece.span.start + 1⟩
      let (contents, problems) :=
        assemble (assembly.add (.text ⟨skipped.source, span⟩)) skipped.rest
      (contents, skipped.problems ++ Problem.tooDeep.report bracket :: problems)
    else
      let (next, found) := assembly.step piece
      let (contents, problems) := assemble next rest
      (contents, found ++ problems)
termination_by all.length
decreasing_by
  · exact skipElement_length_lt 0 piece.span.start piece rest
  · simp

/-! ## Documents -/

/-- The tree of a source, and what is wrong with the source. -/
structure Parsed where
  root : Root
  diagnostics : List Diagnostic

/-- The tree of a source. -/
def parse (tags : LiteralTags) (source : String) : Parsed :=
  let tokens := tokenize tags source
  let (contents, problems) := assemble ⟨[], []⟩ (pieces tags tokens)
  ⟨⟨contents, ⟨0, stopOf 0 tokens⟩⟩, problems⟩

/-- Why a source is refused. -/
inductive SourceError where
  | invalid (message : String) (location : Location) (span : Span)
  | notUtf8

/-- The words for a refusal. -/
def SourceError.message : SourceError → String
  | invalid message location _ =>
    message ++ " at line " ++ toString location.line ++ ", column " ++ toString location.column
  | notUtf8 => "invalid utf-8 in source"

/-- The tree of a source without errors. -/
def parseStrict (source : String) : Except SourceError Root :=
  let parsed := parse .standard source
  match firstError? parsed.diagnostics with
  | some error =>
    let location := (LineIndex.ofSource source).location error.span.start
    .error (.invalid error.message location error.span)
  | none => .ok parsed.root

/-- The tree of a source given as bytes. -/
def parseBytes (bytes : List UInt8) : Except SourceError Parsed :=
  match Text.decodeUtf8 bytes with
  | .ok source => .ok (parse .standard source)
  | .error _ => .error .notUtf8

end PromptMarkup.Markup
