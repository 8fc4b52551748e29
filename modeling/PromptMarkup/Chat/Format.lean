/-
**Output formats.**

* `OutputFormat`: the formats and their names;
* `Formatted`: text or JSON;
* `formatFrame`: a frame in a format.
-/

import PromptMarkup.Block.Markup
import PromptMarkup.Chat.LangChain
import PromptMarkup.Chat.OpenAi

namespace PromptMarkup

/-- The formats of the output. -/
inductive OutputFormat where
  /-- The text of the messages. -/
  | raw
  /-- The messages. -/
  | messageDict
  /-- The frame. -/
  | dict
  | openAiChat
  | langChain
  /-- The blocks as markup. -/
  | blocks
  deriving DecidableEq, Repr

namespace OutputFormat

/-- The name of a format. -/
def name : OutputFormat → String
  | raw => "raw"
  | messageDict => "message_dict"
  | dict => "dict"
  | openAiChat => "openai_chat"
  | langChain => "langchain"
  | blocks => "ir"

/-- All formats. -/
def all : List OutputFormat := [raw, messageDict, dict, openAiChat, langChain, blocks]

end OutputFormat

/-- A text that names no format. -/
structure UnknownFormat where
  text : String
  deriving DecidableEq, Repr

/-- The words for a text that names no format. -/
def UnknownFormat.message (unknown : UnknownFormat) : String :=
  "Unknown output format '" ++ unknown.text ++ "'"

/-- The format that a text names; hyphens stand for underscores. -/
def OutputFormat.read (text : String) : Except UnknownFormat OutputFormat :=
  let name := Text.replaceChar '-' "_" (Text.lowerAscii (Text.trimmed text))
  match all.find? fun format => format.name = name with
  | some format => .ok format
  | none => .error ⟨text⟩

/-- Formatted output. -/
inductive Formatted where
  | text (value : String)
  | json (value : Json)

/-- Formatted output as text; JSON is indented by two blanks. -/
def Formatted.prettyText : Formatted → String
  | text value => value
  | json value => value.pretty "  "

/-- Formatted output is JSON. -/
def Formatted.isJson : Formatted → Bool
  | text _ => false
  | json _ => true

/-- A frame, or the blocks that it comes from, in a format. -/
def formatFrame (frame : ChatFrame) (document : Block) : OutputFormat → Formatted
  | .raw => .text frame.rawText
  | .messageDict => .json frame.messagesJson
  | .dict => .json frame.toJson
  | .openAiChat => .json (OpenAi.request frame)
  | .langChain => .json (LangChain.conversation frame)
  | .blocks => .text document.toMarkup

end PromptMarkup
