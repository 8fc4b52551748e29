/-
**Blocks as markup.**

The written form has one element a line, with the range of the source on each of them. It shows
what a document has become before it is laid out.

* `Block.toMarkup`: the written form of a block.
-/

import PromptMarkup.Block.Basic
import PromptMarkup.Json.Printer
import PromptMarkup.Text.Entities

namespace PromptMarkup

open Text (escapeEntities)

/-- The name of a list style. -/
def ListStyle.name : ListStyle → String
  | dash => "dash"
  | star => "star"
  | plus => "plus"
  | decimal => "decimal"
  | latin => "latin"

/-- The attributes that a kind is written with. -/
def BlockKind.attributes : BlockKind → List (String × String)
  | captioned caption _ _ => [("caption", caption)]
  | code language isInline =>
    ("inline", if isInline then "true" else "false") ::
      (language.map fun language => ("lang", language)).toList
  | list style => [("list-style", style.name)]
  | table header rows => [("columns", ",".intercalate header), ("rows", toString rows.length)]
  | data value => [("value", value.compress)]
  | media clip => ("type", clip.mediaType) :: (clip.alt.map fun alt => ("alt", alt)).toList
  | toolRequest id name parameters =>
    [("id", id), ("name", name), ("parameters", parameters.compress)]
  | toolResponse id name => [("id", id), ("name", name)]
  | _ => []

namespace Block

/-- The written form of an attribute, with a blank in front. -/
def attributeText (name value : String) : String :=
  " " ++ name ++ "=\"" ++ escapeEntities value ++ "\""

/-- The attributes that tell the range of the source. -/
def rangeText (span : Span) : String :=
  attributeText "original-start-index" (toString span.start) ++
    attributeText "original-end-index" (toString span.stop)

/-- The attributes of an element. Markdown is not written, since everything is Markdown unless it
says otherwise. -/
def headText (kind : BlockKind) (presentation : Presentation) (speaker : Option Speaker)
    (span : Span) : String :=
  (if presentation = .markdown then "" else attributeText "syntax" presentation.name) ++
    (speaker.map fun speaker => attributeText "speaker" speaker.name).getD "" ++
    String.join (kind.attributes.map fun pair => attributeText pair.1 pair.2) ++ rangeText span

mutual

/-- The written form of a block behind a margin. -/
def markupAt (margin : String) : Block → String
  | ⟨.text value _, _, _, _, _, span⟩ =>
    margin ++ "<text" ++ rangeText span ++ ">" ++ escapeEntities value ++ "</text>\n"
  | ⟨kind, presentation, speaker, _, children, span⟩ =>
    let opening := margin ++ "<" ++ kind.tag ++ headText kind presentation speaker span
    if children.isEmpty then opening ++ "/>\n"
    else
      opening ++ ">\n" ++ markupAllAt (margin ++ "  ") children ++
        margin ++ "</" ++ kind.tag ++ ">\n"

/-- The written form of some blocks behind a margin. -/
def markupAllAt (margin : String) : List Block → String
  | [] => ""
  | block :: rest => block.markupAt margin ++ markupAllAt margin rest

end

/-- The written form of a block. -/
def toMarkup (block : Block) : String := block.markupAt ""

end Block

end PromptMarkup
