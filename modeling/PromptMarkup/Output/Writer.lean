/-
**Written documents.**

All written forms come from one layout: the plain text, the text with attachments, and the
messages of a chat.

* `writePlain`, `writeMapped`: the plain text, and the plain text with its source map;
* `splitParts`, `writeRich`: text and attachments in turn;
* `writeMessages`, `writeMappedMessages`: one message for each run of a speaker.
-/

import PromptMarkup.Output.Layout
import PromptMarkup.Output.SourceMap
import PromptMarkup.Output.Speakers

namespace PromptMarkup

/-! ## Plain text -/

/-- The plain text of a document. -/
def writePlain (document : Block) : String := (layDocument .plain document).text

/-- The plain text of a document with its source map. -/
def writeMapped (document : Block) : MappedOutput := .ofFragment (layDocument .plain document)

/-! ## Parts -/

/-- The text between two attachments, or at an end, unless it is blank. Line feeds next to an
attachment go away. -/
def textPart (afterAttachment beforeAttachment : Bool) (chars : List Char) : List RichPart :=
  let chars := if afterAttachment then Text.trimStartBy isLineFeed chars else chars
  let chars := if beforeAttachment then Text.trimEndBy isLineFeed chars else chars
  if chars.all Text.isBlank then [] else [.text (String.ofList chars)]

/-- The parts of a fragment behind some text. -/
def splitPartsFrom (afterAttachment : Bool) (chars : List Char) : Fragment → List RichPart
  | [] => textPart afterAttachment false chars
  | piece :: rest =>
    match piece.attachment with
    | some attachment =>
      textPart afterAttachment true chars ++ .attachment attachment :: splitPartsFrom true [] rest
    | none => splitPartsFrom afterAttachment (chars ++ piece.text.toList) rest

/-- The parts of a fragment: its attachments with the text between them. -/
def splitParts (fragment : Fragment) : List RichPart := splitPartsFrom false [] fragment

/-- The text of a document with its attachments. -/
def writeRich (document : Block) : List RichPart := splitParts (layDocument .rich document)

/-! ## Messages -/

/-- The messages of a document. -/
def writeMessages (document : Block) (single : Bool) : List Message :=
  (speakerRuns document single).map fun run =>
    ⟨run.speaker, .ofParts (splitParts (layBlocks .rich run.blocks run.span))⟩

/-- A message with the source map of its text. Attachments are in it as text. -/
structure MappedMessage where
  speaker : Speaker
  /-- The range around all of the message. -/
  span : Span
  output : MappedOutput

/-- The messages of a document with the source maps of their texts. -/
def writeMappedMessages (document : Block) (single : Bool) : List MappedMessage :=
  (speakerRuns document single).map fun run =>
    ⟨run.speaker, run.span, .ofFragment (layBlocks .rich run.blocks run.span)⟩

end PromptMarkup
