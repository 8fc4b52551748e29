/-
**Blocks.**

A block is content together with how it is to be written: what it is, its presentation, what
becomes of blanks in it, who says it, and the range of the source that it came from.

* `Media`: an image or a sound;
* `BlockKind`, `Block`: what content is, and content in the form of a tree;
* `Block.walk`: a block and everything below it, in the order of the document;
* `Block.texts`, `Block.textContent`: the text below a block.
-/

import PromptMarkup.Block.Style
import PromptMarkup.Json.Basic
import PromptMarkup.Source.Span

namespace PromptMarkup

/-- An image or a sound with its bytes in base 64. -/
structure Media where
  mediaType : String
  base64 : String
  alt : Option String
  deriving DecidableEq, Repr

/-- Media as JSON. -/
def Media.toJson (media : Media) : Json :=
  .object ([("type", .string media.mediaType), ("base64", .string media.base64)] ++
    (media.alt.map fun alt => ("alt", Json.string alt)).toList)

/-! ## Kinds -/

/-- What the content of a block is. -/
inductive BlockKind where
  | document
  | paragraph
  /-- Headings inside are one level deeper. -/
  | division
  | heading
  /-- A caption in front of the children. -/
  | captioned (caption : String) (style : CaptionStyle) (ending : CaptionEnding)
  | inline (style : InlineStyle)
  | lineBreak
  /-- Exact text is what the source reads at the range of the block. -/
  | text (value : String) (exact : Bool)
  | code (language : Option String) (isInline : Bool)
  | list (style : ListStyle)
  | listItem
  | table (header : List String) (rows : List (List String))
  /-- A value, written as data. -/
  | data (value : Json)
  | media (media : Media)
  /-- A message of the speaker of the block. -/
  | message
  | toolRequest (id name : String) (parameters : Json)
  | toolResponse (id name : String)

namespace BlockKind

/-- The tag of an inline style. -/
def inlineTag : InlineStyle → String
  | .plain => "span"
  | .bold => "b"
  | .italic => "i"
  | .strikethrough => "s"
  | .underline => "u"

/-- The tag of a kind. -/
def tag : BlockKind → String
  | document => "document"
  | paragraph => "p"
  | division => "section"
  | heading => "h"
  | captioned _ _ _ => "cp"
  | inline style => inlineTag style
  | lineBreak => "br"
  | text _ _ => "text"
  | code _ _ => "code"
  | list _ => "list"
  | listItem => "item"
  | table _ _ => "table"
  | data _ => "obj"
  | media _ => "media"
  | message => "msg"
  | toolRequest _ _ _ => "tool-request"
  | toolResponse _ _ => "tool-response"

/-- A kind that flows into the paragraph around it. -/
def isInline : BlockKind → Bool
  | text _ _ => true
  | inline _ => true
  | lineBreak => true
  | code _ isInline => isInline
  | media _ => true
  | _ => false

/-- Text of blanks only. -/
def isBlankText : BlockKind → Bool
  | text value _ => Text.isBlankText value
  | _ => false

end BlockKind

/-! ## Blocks -/

/-- Content with how it is written. The speaker is that of the block itself; what is below it has
the same speaker unless it names another one. -/
structure Block where
  kind : BlockKind
  presentation : Presentation
  speaker : Option Speaker
  spacing : Spacing
  children : List Block
  span : Span

namespace Block

/-- A block flows into the paragraph around it. -/
def isInline (block : Block) : Bool := block.kind.isInline

/-- A block of blank text. -/
def isBlankText (block : Block) : Bool := block.kind.isBlankText

/-! ## Walks -/

mutual

/-- A block and everything below it, in the order of the document. -/
def walk : Block → List Block
  | ⟨kind, presentation, speaker, spacing, children, span⟩ =>
    ⟨kind, presentation, speaker, spacing, children, span⟩ :: walkAll children

/-- Some blocks and everything below them, in the order of the document. -/
def walkAll : List Block → List Block
  | [] => []
  | block :: rest => block.walk ++ walkAll rest

end

/-- The text of a text block. -/
def text? (block : Block) : Option String :=
  match block.kind with
  | .text value _ => some value
  | _ => none

/-- All text of a block. -/
def textContent (block : Block) : String := String.join (block.walk.filterMap text?)

end Block

end PromptMarkup
