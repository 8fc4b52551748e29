/-
**Lists of typed messages.**

Each message has a type, and data of that type.

* `LangChain.style`: the messages of the format;
* `LangChain.conversation`: the messages of a frame with its declarations.
-/

import PromptMarkup.Chat.Frame
import PromptMarkup.Chat.Style

namespace PromptMarkup.LangChain

/-- A part of a message. -/
def partJson : SpokenPart → Json
  | .text value => .object [("type", .string "text"), ("text", .string value)]
  | .media clip =>
    let kind := if clip.mediaType.startsWith "audio/" then "audio" else "image"
    .object [("type", .string kind), ("source_type", .string "base64"),
      ("data", .string clip.base64), ("mime_type", .string clip.mediaType)]

/-- A call of a tool. -/
def callJson (call : ToolCall) : Json :=
  .object [("id", .string call.id), ("name", .string call.name), ("args", call.parameters)]

/-- A message of a speaker. -/
def messageJson (speaker : Speaker) (data : List (String × Json)) : Json :=
  .object [("type", .string speaker.name), ("data", .object data)]

/-- The data of a message. -/
def dataOf (message : Json) : Json := (message.get? "data").getD .null

/-- How typed messages are written. -/
def style : ChatStyle Json where
  speech speaker parts := messageJson speaker [("content", SpokenPart.contentJson partJson parts)]
  awaitsCalls message :=
    (message.get? "type").bind Json.string? = some Speaker.ai.name &&
      ((dataOf message).get? "tool_calls").isNone
  attach calls message :=
    message.set "data" ((dataOf message).set "tool_calls" (.array (calls.map callJson)))
  calls calls := messageJson .ai [("tool_calls", .array (calls.map callJson))]
  answer answer :=
    messageJson .tool [("content", .string answer.content), ("tool_call_id", .string answer.id),
      ("name", .string answer.name)]

/-- The messages of a frame with its declarations. -/
def conversation (frame : ChatFrame) : Json :=
  frame.withMessages (.array (style.messages frame.messages))

end PromptMarkup.LangChain
