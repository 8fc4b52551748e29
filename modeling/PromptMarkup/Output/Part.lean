/-
**Parts of the output.**

Output is text with attachments between it: media, calls of tools and their answers.

* `Attachment`, `RichPart`: a part that is not text, and any part;
* `MessageContent`: the content of a message, which is a bare text when there is nothing else;
* `Message`: content with its speaker.
-/

import PromptMarkup.Block.Basic

namespace PromptMarkup

/-- A part of the output that is not text. -/
inductive Attachment where
  | media (media : Media)
  /-- A call that the model makes. -/
  | toolRequest (id name : String) (parameters : Json)
  /-- The answer to a call. -/
  | toolResponse (id name content : String)

/-- An attachment as JSON. -/
def Attachment.toJson : Attachment → Json
  | media clip => clip.toJson
  | toolRequest id name parameters =>
    .object [("type", .string "tool_request"), ("id", .string id), ("name", .string name),
      ("parameters", parameters)]
  | toolResponse id name content =>
    .object [("type", .string "tool_response"), ("id", .string id), ("name", .string name),
      ("content", .string content)]

/-- A part of the output. -/
inductive RichPart where
  | text (value : String)
  | attachment (attachment : Attachment)

namespace RichPart

/-- A part as JSON. -/
def toJson : RichPart → Json
  | text value => .string value
  | attachment part => part.toJson

/-- The text of a part. -/
def text? : RichPart → Option String
  | text value => some value
  | attachment _ => none

/-- The attachment of a part. -/
def attachment? : RichPart → Option Attachment
  | text _ => none
  | attachment part => some part

end RichPart

/-! ## Content -/

/-- The content of a message. -/
inductive MessageContent where
  | text (value : String)
  | rich (parts : List RichPart)

namespace MessageContent

/-- The content that consists of some parts. -/
def ofParts : List RichPart → MessageContent
  | [] => text ""
  | [.text value] => text value
  | parts => rich parts

/-- The parts of the content. -/
def parts : MessageContent → List RichPart
  | text value => [.text value]
  | rich parts => parts

/-- The texts of the content with blank lines between them. -/
def plainText : MessageContent → String
  | text value => value
  | rich parts => "\n\n".intercalate (parts.filterMap RichPart.text?)

/-- The content as JSON. -/
def toJson : MessageContent → Json
  | text value => .string value
  | rich parts => .array (parts.map RichPart.toJson)

end MessageContent

/-- Content with its speaker. -/
structure Message where
  speaker : Speaker
  content : MessageContent

/-- A message as JSON. -/
def Message.toJson (message : Message) : Json :=
  .object [("speaker", .string message.speaker.name), ("content", message.content.toJson)]

end PromptMarkup
