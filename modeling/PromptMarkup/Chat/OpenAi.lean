/-
**Requests of chat completions.**

The body of a request names messages with roles, a format of the response, tools with their
parameters, and runtime parameters in snake case at the top.

* `OpenAi.style`: the messages of a request;
* `OpenAi.request`: the body of a request for a frame.
-/

import PromptMarkup.Chat.Frame
import PromptMarkup.Chat.Style

namespace PromptMarkup.OpenAi

/-! ## Messages -/

/-- The text with all copies of a piece in front of it taken off. -/
def dropCopies (piece chars : List Char) : List Char :=
  match _found : Text.dropPrefix? piece chars with
  | some rest => if rest.length < chars.length then dropCopies piece rest else chars
  | none => chars
termination_by chars.length

/-- The name of the format of a sound. -/
def audioFormat (mediaType : String) : String :=
  match Text.dropPrefix? "audio/".toList mediaType.toList with
  | some subtype => String.ofList (dropCopies "x-".toList subtype)
  | none => mediaType

/-- Media as a part of a message. -/
def mediaJson (media : Media) : Json :=
  if media.mediaType.startsWith "audio/" then
    .object [("type", .string "input_audio"),
      ("input_audio", .object [("data", .string media.base64),
        ("format", .string (audioFormat media.mediaType))])]
  else
    .object [("type", .string "image_url"),
      ("image_url", .object [("url",
        .string ("data:" ++ media.mediaType ++ ";base64," ++ media.base64))])]

/-- A part of a message. -/
def partJson : SpokenPart → Json
  | .text value => .object [("type", .string "text"), ("text", .string value)]
  | .media clip => mediaJson clip

/-- A call of a tool; its parameters are written as text. -/
def callJson (call : ToolCall) : Json :=
  .object [("id", .string call.id), ("type", .string "function"),
    ("function", .object [("name", .string call.name),
      ("arguments", .string call.parameters.compress)])]

/-- How messages with roles are written. -/
def style : ChatStyle Json where
  speech speaker parts :=
    .object [("role", .string speaker.role), ("content", SpokenPart.contentJson partJson parts)]
  awaitsCalls message :=
    (message.get? "role").bind Json.string? = some Speaker.ai.role &&
      (message.get? "tool_calls").isNone
  attach calls message := message.set "tool_calls" (.array (calls.map callJson))
  calls calls :=
    .object [("role", .string Speaker.ai.role), ("tool_calls", .array (calls.map callJson))]
  answer answer :=
    .object [("role", .string Speaker.tool.role), ("content", .string answer.content),
      ("tool_call_id", .string answer.id)]

/-! ## Requests -/

/-- A tool that may be called. -/
def toolJson (tool : Schema.ToolDefinition) : Json :=
  .object [("type", .string "function"),
    ("function", .object ([("name", .string tool.name)] ++
      (tool.description.map fun text => ("description", Json.string text)).toList ++
      [("parameters", tool.parameters.json)]))]

/-- The format of the response. -/
def responseFormat (schema : Schema.SchemaDocument) : Json :=
  .object [("type", .string "json_schema"),
    ("json_schema", .object [("name", .string "schema"), ("schema", schema.json),
      ("strict", .bool true)])]

/-- The fields of a request that the library names itself. -/
def ownFields (frame : ChatFrame) : List (String × Json) :=
  let tools := frame.declared.tools
  [("messages", .array (style.messages frame.messages))] ++
    (frame.declared.responseSchema.map fun schema =>
      ("response_format", responseFormat schema)).toList ++
    (if tools.isEmpty then [] else [("tools", .array (tools.map toolJson))])

/-- The body of a request. A runtime parameter replaces a field of its name. -/
def request (frame : ChatFrame) : Json :=
  .object (Fields.insertAll (ownFields frame)
    (frame.declared.runtime.map fun (key, value) => (Markup.snakeCase key, value)))

end PromptMarkup.OpenAi
