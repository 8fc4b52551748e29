/-
**Layout.**

Inline blocks in a row make a paragraph, other blocks stand alone, and blank lines divide them.
How a block is written depends on its presentation, on the level of headings around it and on the
presentation around it. The columns of a table are as wide as their widest cell, and its lines are
divided by pipes.

* `tableText`: the lines of a table;
* `LayoutContext`: what a block has to know of the blocks around it;
* `Laid`: a block laid out, both as a part of a paragraph and on its own;
* `groups`: paragraphs and other blocks in a row;
* `layOut`: a block laid out, by way of its children laid out.
-/

import PromptMarkup.Output.Fragment
import PromptMarkup.Output.Xml
import PromptMarkup.Output.Yaml
import PromptMarkup.Text.Cut

namespace PromptMarkup

/-! ## Tables -/

/-- The text of a cell in one line, with a backslash in front of each pipe. -/
def escapeCell (text : String) : String :=
  Text.replaceChar '|' "\\|" (Text.replaceChar '\n' " " text)

/-- The cells of a row as they are written, with empty ones up to the number of columns. -/
def rowCells (columns : Nat) (row : List String) : List String :=
  (List.range columns).map fun index => escapeCell (row[index]?.getD "")

/-- The width of each column: the number of characters of its longest cell, at least one. -/
def columnWidths (columns : Nat) (rows : List (List String)) : List Nat :=
  rows.foldl (fun widths row => List.zipWith (fun width cell => max width cell.length) widths row)
    (List.replicate columns 1)

/-- A cell with blanks up to a width. -/
def padCell (width : Nat) (cell : String) : String :=
  cell ++ String.ofList (List.replicate (width - cell.length) ' ')

/-- A line of a table. -/
def tableLine (widths : List Nat) (cells : List String) : String :=
  "| " ++ " | ".intercalate (List.zipWith padCell widths cells) ++ " |"

/-- The lines of a table: the titles, a rule and the rows. A table without columns has no text. -/
def tableText (header : List String) (rows : List (List String)) : String :=
  let columns := rows.foldl (fun most row => max most row.length) header.length
  if columns = 0 then ""
  else
    let cells := (header :: rows).map (rowCells columns)
    let widths := columnWidths columns cells
    let rule := widths.map fun width => String.ofList (List.replicate width '-')
    "\n".intercalate (match cells with
      | [] => []
      | titles :: rest =>
        tableLine widths titles :: tableLine widths rule :: rest.map (tableLine widths))

/-! ## Blocks laid out -/

/-- What becomes of attachments. -/
inductive Rendition where
  /-- They become text. -/
  | plain
  /-- They are kept. -/
  | rich
  deriving DecidableEq, Repr

/-- The level of headings in a block, and the presentation of the block around it. -/
structure LayoutContext where
  level : Nat
  presentation : Presentation
  deriving DecidableEq, Repr

/-- A block laid out. -/
structure Laid where
  isInline : Bool
  span : Span
  /-- The block as a part of a paragraph. -/
  inline : List InlinePiece
  /-- The block on its own. -/
  fragment : Fragment

/-! ## Marks -/

/-- A presentation in which Markdown is written. -/
def Presentation.isMarkdown : Presentation → Bool
  | markdown => true
  | multimedia => true
  | _ => false

/-- The marks of an inline style where Markdown is written. -/
def InlineStyle.markdownMarks : InlineStyle → String × String
  | plain => ("", "")
  | bold => ("**", "**")
  | italic => ("*", "*")
  | strikethrough => ("~~", "~~")
  | underline => ("<u>", "</u>")

/-- The marks of an inline style in HTML. -/
def InlineStyle.htmlMarks : InlineStyle → String × String
  | plain => ("", "")
  | bold => ("<b>", "</b>")
  | italic => ("<i>", "</i>")
  | strikethrough => ("<s>", "</s>")
  | underline => ("<u>", "</u>")

/-- The marks around content in an inline style. -/
def InlineStyle.marks (style : InlineStyle) (presentation : Presentation) : String × String :=
  if presentation.isMarkdown then style.markdownMarks
  else if presentation = .html then style.htmlMarks
  else ("", "")

/-- The marks around inline code. -/
def codeMarks (presentation : Presentation) : String × String :=
  if presentation = .html then ("<code>", "</code>")
  else if presentation.isMarkdown then ("\x60", "\x60")
  else ("", "")

/-- The line that opens a fenced block. -/
def openFence (name : String) : String := "\x60\x60\x60" ++ name ++ "\n"

/-- The line that closes a fenced block. -/
def closeFence : String := "\n\x60\x60\x60"

/-- What stands between paragraphs. -/
def paragraphBreak : String := "\n\n"

/-! ## Groups -/

/-- A fragment unless it is blank. -/
def visible (fragment : Fragment) : List Fragment := if fragment.isBlank then [] else [fragment]

/-- The paragraphs and other blocks in a row, without the blank ones; `run` is the inline content
in front of the blocks. -/
def groupsFrom (spacing : Spacing) (run : List InlinePiece) : List Laid → List Fragment
  | [] => visible (.ofInline spacing run)
  | laid :: rest =>
    if laid.isInline then groupsFrom spacing (run ++ laid.inline) rest
    else visible (.ofInline spacing run) ++ visible laid.fragment ++ groupsFrom spacing [] rest

/-- The paragraphs and other blocks in a row, without the blank ones. -/
def groups (spacing : Spacing) (blocks : List Laid) : List Fragment := groupsFrom spacing [] blocks

/-- Blocks with blank lines between them. -/
def contents (spacing : Spacing) (span : Span) (blocks : List Laid) : Fragment :=
  Fragment.join paragraphBreak span (groups spacing blocks)

/-! ## Single kinds -/

/-- Blocks in HTML are a paragraph unless they are inside of one that is. -/
def layParagraph (context : LayoutContext) (presentation : Presentation) (span : Span)
    (body : Fragment) : Fragment :=
  if presentation = .html && context.presentation ≠ .html && !body.isBlank then
    body.wrap "<p>" "</p>" span
  else body

/-- A heading. There are six levels. -/
def layHeading (presentation : Presentation) (span : Span) (level : Nat) (content : Fragment) :
    Fragment :=
  let level := max 1 (min level 6)
  if presentation = .html then
    content.wrap ("<h" ++ toString level ++ ">") ("</h" ++ toString level ++ ">") span
  else if presentation.isMarkdown then
    .synthetic (String.ofList (List.replicate level '#') ++ " ") span ++ content
  else content

/-- A caption that is not a heading. -/
def captionLabel (presentation : Presentation) (caption : String) (style : CaptionStyle)
    (ending : CaptionEnding) : String :=
  let ended := caption.toList.getLast? = some ':'
  let label := if ending = .colon && !ended then caption ++ ":" else caption
  if style = .bold then
    let (opening, closing) := InlineStyle.bold.marks presentation
    opening ++ label ++ closing
  else label

/-- What stands between a caption that is not a heading and a body. -/
def captionSeparator (ending : CaptionEnding) (inlineBody : Bool) : String :=
  match ending with
  | .newline => "\n"
  | .none => " "
  | .colon => if inlineBody then " " else paragraphBreak

/-- A caption in front of a body. -/
def layCaption (separator : String) (span : Span) (caption body : Fragment) : Fragment :=
  if body.isBlank then caption else Fragment.join separator span [caption, body]

/-- A body with its caption. -/
def layCaptioned (context : LayoutContext) (presentation : Presentation) (span : Span)
    (caption : String) (style : CaptionStyle) (ending : CaptionEnding) (inlineBody : Bool)
    (body : Fragment) : Fragment :=
  match style with
  | .hidden => body
  | .header =>
    layCaption paragraphBreak span
      (layHeading presentation span context.level (.synthetic caption span)) body
  | _ =>
    layCaption (captionSeparator ending inlineBody) span
      (.synthetic (captionLabel presentation caption style ending) span) body

/-- The items of a list from an index on, each behind its marker. -/
def layItems (style : ListStyle) (index : Nat) : List Laid → List Fragment
  | [] => []
  | item :: rest =>
    let marker := style.marker index
    let margin := String.ofList (List.replicate marker.length ' ')
    (.synthetic marker item.span ++ item.fragment.indent margin item.span) ::
      layItems style (index + 1) rest

/-- A character that ends a line. -/
def isLineEnd (char : Char) : Bool := char = '\n' || char = '\r'

/-- A block of code. -/
def layCode (presentation : Presentation) (language : Option String) (span : Span)
    (body : Fragment) : Fragment :=
  let body := body.trimBy isLineEnd Text.isBlank
  if presentation.isMarkdown then body.wrap (openFence (language.getD "")) closeFence span
  else if presentation = .html then body.wrap "<pre><code>" "</code></pre>" span
  else body

/-- A value as data. -/
def dataText (presentation : Presentation) (value : Json) : String :=
  match presentation with
  | .yaml => Yaml.write value
  | .xml => Xml.write value
  | _ => value.pretty "  "

/-- A value as data, in a fence unless there is data around it. -/
def layData (context : LayoutContext) (presentation : Presentation) (span : Span) (value : Json) :
    Fragment :=
  let body := Fragment.synthetic (dataText presentation value) span
  if context.presentation.isSerialization then body
  else body.wrap (openFence presentation.name) closeFence span

/-- An attachment with the text that stands for it. -/
def layAttachment (rendition : Rendition) (attachment : Attachment) (text : String) (span : Span) :
    Fragment :=
  match rendition with
  | .rich => [⟨text, span, false, some attachment⟩]
  | .plain => .synthetic text span

/-- A call of a tool as text. -/
def requestText (id name : String) (parameters : Json) : String :=
  (Json.object [("id", .string id), ("name", .string name),
    ("parameters", parameters)]).pretty "  "

/-! ## Blocks -/

/-- The piece of a text block. -/
def Block.piece? (block : Block) : Option Piece :=
  match block.kind with
  | .text value exact => some (.ofText value block.span exact)
  | _ => none

/-- The text of some blocks as it stands, without empty pieces. -/
def verbatim (blocks : List Block) : Fragment :=
  ((Block.walkAll blocks).filterMap Block.piece?).filter fun piece => !piece.isVoid

/-- What the children of a block have to know. -/
def childContext (kind : BlockKind) (presentation : Presentation) (context : LayoutContext) :
    LayoutContext :=
  match kind with
  | .heading => context
  | .inline _ => context
  | .division => ⟨context.level + 1, presentation⟩
  | .captioned _ .header _ => ⟨context.level + 1, presentation⟩
  | _ => ⟨context.level, presentation⟩

/-- What becomes of attachments in a block: an answer of a tool is text. -/
def childRendition (kind : BlockKind) (rendition : Rendition) : Rendition :=
  match kind with
  | .toolResponse _ _ => .plain
  | _ => rendition

/-- A block as a part of a paragraph, for kinds that are not laid out on their own first. -/
def inlineForm? (block : Block) (children : List Laid) : Option (List InlinePiece) :=
  let marked := fun (marks : String × String) (inner : List InlinePiece) =>
    InlinePiece.marks marks.1 block.span ++ inner ++ InlinePiece.marks marks.2 block.span
  match block.kind with
  | .text value exact => some [⟨.ofText value block.span exact, some block.spacing⟩]
  | .lineBreak => some [.mark "\n" block.span]
  | .inline style =>
    some (marked (style.marks block.presentation) (children.flatMap Laid.inline))
  | .code _ true =>
    some (marked (codeMarks block.presentation)
      ((verbatim block.children).map fun piece => ⟨piece, some .pre⟩))
  | _ => none

/-- A block on its own. -/
def blockForm (rendition : Rendition) (context : LayoutContext) (block : Block)
    (children : List Laid) : Fragment :=
  let span := block.span
  let presentation := block.presentation
  let body := contents block.spacing span children
  match block.kind with
  | .document => body
  | .message => body
  | .division => body
  | .listItem => body
  | .paragraph => layParagraph context presentation span body
  | .heading =>
    layHeading presentation span context.level
      (.ofInline block.spacing (children.flatMap Laid.inline))
  | .captioned caption style ending =>
    layCaptioned context presentation span caption style ending (children.all Laid.isInline) body
  | .list style => Fragment.join "\n" span (layItems style 0 children)
  | .table header rows => .synthetic (tableText header rows) span
  | .code language _ => layCode presentation language span (verbatim block.children)
  | .data value => layData context presentation span value
  | .media clip => layAttachment rendition (.media clip) (clip.alt.getD "") span
  | .toolRequest id name parameters =>
    layAttachment rendition (.toolRequest id name parameters) (requestText id name parameters) span
  | .toolResponse id name =>
    match rendition with
    | .rich => layAttachment .rich (.toolResponse id name body.text) body.text span
    | .plain => body
  | .text _ _ | .lineBreak | .inline _ =>
    .ofInline block.spacing ((inlineForm? block children).getD [])

/-- A block laid out when its children are. -/
def assemble (rendition : Rendition) (context : LayoutContext) (block : Block)
    (children : List Laid) : Laid :=
  let fragment := blockForm rendition context block children
  ⟨block.isInline, block.span,
    (inlineForm? block children).getD (fragment.map InlinePiece.ofPiece), fragment⟩

mutual

/-- A block laid out. -/
def layOut (rendition : Rendition) (context : LayoutContext) : Block → Laid
  | ⟨kind, presentation, speaker, spacing, children, span⟩ =>
    assemble rendition context ⟨kind, presentation, speaker, spacing, children, span⟩
      (layOutAll (childRendition kind rendition) (childContext kind presentation context) children)

/-- Some blocks laid out. -/
def layOutAll (rendition : Rendition) (context : LayoutContext) : List Block → List Laid
  | [] => []
  | block :: rest => layOut rendition context block :: layOutAll rendition context rest

end

/-! ## Documents -/

/-- A line feed. -/
def isLineFeed (char : Char) : Bool := char = '\n'

/-- A fragment without empty lines in front and without blanks at the end. -/
def trimDocument (fragment : Fragment) : Fragment := fragment.trimBy isLineFeed Text.isBlank

/-- A document laid out. -/
def layDocument (rendition : Rendition) (document : Block) : Fragment :=
  trimDocument (layOut rendition ⟨1, document.presentation⟩ document).fragment

/-- Some blocks laid out as one document; the first of them says how. -/
def layBlocks (rendition : Rendition) (blocks : List Block) (span : Span) : Fragment :=
  let presentation := (blocks.head?.map Block.presentation).getD .markdown
  let spacing := (blocks.head?.map Block.spacing).getD .filter
  trimDocument (contents spacing span (layOutAll rendition ⟨1, presentation⟩ blocks))

end PromptMarkup
