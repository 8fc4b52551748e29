/-
**Fragments of the output.**

Output is built from pieces that remember the range of the source that they came from. An exact
piece is a copy of that range, so that its bytes can be told apart; any other piece stands for the
range as a whole. Inline content in a row makes a paragraph; in text that is filtered, blanks in a
row become one blank, also when they belong to different pieces.

* `Piece`: text with its range, or an attachment with the text that stands for it;
* `Piece.slice`: a part of a piece, with its own range if the piece is a copy;
* `Fragment`: some pieces in a row;
* `Fragment.trimBy`, `Fragment.indent`: the changes that a layout makes to a fragment;
* `InlinePiece`, `Fragment.ofInline`: a piece with the treatment of blanks that it asks for, and a
  paragraph of some pieces.
-/

import PromptMarkup.Output.Part
import PromptMarkup.Text.Cut

namespace PromptMarkup

open Text (byteLength isBlank)

/-! ## Pieces -/

/-- Text of the output with the range of the source that it came from. An attachment comes with
the text that stands for it in plain output. -/
structure Piece where
  text : String
  span : Span
  exact : Bool
  attachment : Option Attachment

namespace Piece

/-- Text without an attachment. -/
def ofText (text : String) (span : Span) (exact : Bool) : Piece := ⟨text, span, exact, none⟩

/-- Text that the source does not have. -/
def synthetic (text : String) (span : Span) : Piece := ofText text span false

/-- The number of bytes of a piece. -/
def size (piece : Piece) : Nat := byteLength piece.text.toList

/-- The bytes of the piece are those of its range. -/
def isLinear (piece : Piece) : Bool := piece.exact && piece.span.length = piece.size

/-- A piece that leaves nothing in any output. -/
def isVoid (piece : Piece) : Bool := piece.text.isEmpty && piece.attachment.isNone

/-- A piece of blanks only. -/
def isBlank (piece : Piece) : Bool := piece.attachment.isNone && Text.isBlankText piece.text

/-- The part of a piece that reads `chars` behind `offset` bytes. -/
def slice (piece : Piece) (offset : Nat) (chars : List Char) : Piece :=
  let start := piece.span.start + offset
  let span := if piece.isLinear then ⟨start, start + byteLength chars⟩ else piece.span
  ofText (String.ofList chars) span piece.exact

/-- The parts of a piece that read some texts in a row, behind `offset` bytes. -/
def slicesFrom (piece : Piece) (offset : Nat) : List (List Char) → List Piece
  | [] => []
  | chars :: rest => piece.slice offset chars :: slicesFrom piece (offset + byteLength chars) rest

/-- A piece cut between any two characters that do not belong together. -/
def cutBy (together : Char → Char → Bool) (piece : Piece) : List Piece :=
  piece.slicesFrom 0 (piece.text.toList.splitBy together)

/-- The lines of a piece, each with the line feed that ends it. -/
def lines (piece : Piece) : List Piece := piece.cutBy fun char _ => char ≠ '\n'

/-- The runs of blanks and of other characters of a piece. -/
def runs (piece : Piece) : List Piece :=
  piece.cutBy fun first second => Text.isBlank first = Text.isBlank second

/-- A piece without the characters in front that satisfy `drop`. -/
def dropFront (drop : Char → Bool) (piece : Piece) : Piece :=
  let chars := piece.text.toList
  piece.slice (byteLength (chars.takeWhile drop)) (chars.dropWhile drop)

/-- A piece without the characters at the end that satisfy `drop`. -/
def dropBack (drop : Char → Bool) (piece : Piece) : Piece :=
  piece.slice 0 (Text.trimEndBy drop piece.text.toList)

end Piece

/-! ## Fragments -/

/-- Some pieces in a row. -/
abbrev Fragment := List Piece

namespace Fragment

/-- Text that the source does not have; no piece at all if there is no text. -/
def synthetic (text : String) (span : Span) : Fragment :=
  if text.isEmpty then [] else [.synthetic text span]

/-- The plain text of a fragment. -/
def text (fragment : Fragment) : String := String.join (fragment.map Piece.text)

/-- A fragment of blanks only. -/
def isBlank (fragment : Fragment) : Bool := fragment.all Piece.isBlank

/-- Some fragments with a text between any two of them. -/
def join (separator : String) (span : Span) (fragments : List Fragment) : Fragment :=
  (fragments.intersperse (synthetic separator span)).flatten

/-- A fragment between two texts. -/
def wrap (opening closing : String) (span : Span) (fragment : Fragment) : Fragment :=
  synthetic opening span ++ fragment ++ synthetic closing span

/-! ## Trimming -/

/-- A fragment without the characters in front that satisfy `drop`. An attachment ends the
trimming. -/
def trimFront (drop : Char → Bool) : Fragment → Fragment
  | [] => []
  | piece :: rest =>
    if piece.attachment.isSome then piece :: rest
    else
      let kept := piece.dropFront drop
      if kept.text.isEmpty then trimFront drop rest else kept :: rest

/-- A fragment without the characters at the end that satisfy `drop`. An attachment ends the
trimming. -/
def trimBack (drop : Char → Bool) : Fragment → Fragment
  | [] => []
  | piece :: rest =>
    match trimBack drop rest with
    | next :: more => piece :: next :: more
    | [] =>
      if piece.attachment.isSome then [piece]
      else
        let kept := piece.dropBack drop
        if kept.text.isEmpty then [] else [kept]

/-- A fragment without the characters in front that satisfy `front`, and then without those at the
end that satisfy `back`. -/
def trimBy (front back : Char → Bool) (fragment : Fragment) : Fragment :=
  trimBack back (trimFront front fragment)

/-- A fragment without blanks at either end. -/
def trim (fragment : Fragment) : Fragment := trimBy Text.isBlank Text.isBlank fragment

/-! ## Indentation -/

/-- Lines behind a margin, except for lines without text; `pending` says that the first of them
starts a line. The second part says whether the next piece starts a line. -/
def indentLines (margin : String) (span : Span) (pending : Bool) :
    List Piece → List Piece × Bool
  | [] => ([], pending)
  | line :: rest =>
    let (more, last) := indentLines margin span (line.text.toList.getLast? = some '\n') rest
    if pending && line.text ≠ "\n" then (.synthetic margin span :: line :: more, last)
    else (line :: more, last)

/-- A fragment of which `pending` says whether it starts a line, with every line behind a margin.
Attachments stay as they are. -/
def indentFrom (margin : String) (span : Span) (pending : Bool) : Fragment → Fragment
  | [] => []
  | piece :: rest =>
    if piece.attachment.isSome then piece :: indentFrom margin span pending rest
    else
      let (lines, last) := indentLines margin span pending piece.lines
      lines ++ indentFrom margin span last rest

/-- A fragment with every line but the first behind a margin. -/
def indent (margin : String) (span : Span) (fragment : Fragment) : Fragment :=
  indentFrom margin span false fragment

end Fragment

/-! ## Paragraphs -/

/-- A piece of a paragraph with its treatment of blanks. The marks that a layout adds have none. -/
structure InlinePiece where
  piece : Piece
  spacing : Option Spacing

namespace InlinePiece

/-- A mark that the layout adds. -/
def mark (text : String) (span : Span) : InlinePiece := ⟨.synthetic text span, none⟩

/-- A mark that the layout adds, or nothing if it has no text. -/
def marks (text : String) (span : Span) : List InlinePiece :=
  if text.isEmpty then [] else [mark text span]

/-- A piece that has been laid out already. -/
def ofPiece (piece : Piece) : InlinePiece := ⟨piece, none⟩

end InlinePiece

/-- Runs of blanks and of other text with each run of blanks turned into one blank, and dropped
behind a blank. The second part says whether a blank stands at the end. -/
def collapseRuns (afterBlank : Bool) : List Piece → List Piece × Bool
  | [] => ([], afterBlank)
  | run :: rest =>
    let blank := Text.isBlankText run.text
    let (more, last) := collapseRuns blank rest
    if !blank then (run :: more, last)
    else if afterBlank then (more, last)
    else (.synthetic " " run.span :: more, last)

/-- The pieces of a paragraph with their blanks treated; `afterBlank` says whether a blank stands
in front. -/
def normalizeFrom (afterBlank : Bool) : List InlinePiece → List Piece
  | [] => []
  | ⟨piece, spacing⟩ :: rest =>
    if spacing = some .filter then
      let (pieces, last) := collapseRuns afterBlank piece.runs
      pieces ++ normalizeFrom last rest
    else if piece.isVoid then normalizeFrom afterBlank rest
    else piece :: normalizeFrom (piece.text.toList.getLast?.any Text.isBlank) rest

/-- A paragraph. It has no blanks at its ends unless the block around it keeps them. -/
def Fragment.ofInline (container : Spacing) (run : List InlinePiece) : Fragment :=
  let pieces := normalizeFrom true run
  if container = .pre then pieces else Fragment.trim pieces

end PromptMarkup
