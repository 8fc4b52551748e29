/-
**Frames.**

A frame is everything that a call of a model needs: the messages, and what the document declares.

* `ChatFrame`: messages with a schema, tools and runtime parameters;
* `ChatFrame.toJson`: a frame as JSON;
* `ChatFrame.rawText`: the text of the messages.
-/

import PromptMarkup.Output.Part
import PromptMarkup.Schema.Collector

namespace PromptMarkup

/-- Messages with the declarations of the document. -/
structure ChatFrame where
  messages : List Message
  declared : Schema.Outcome

namespace ChatFrame

/-- The messages as JSON. -/
def messagesJson (frame : ChatFrame) : Json := .array (frame.messages.map Message.toJson)

/-- The schema of the response under a key, if there is one. -/
def schemaField (frame : ChatFrame) (key : String) : List (String × Json) :=
  (frame.declared.responseSchema.map fun schema => (key, schema.json)).toList

/-- The tools under their key, if there are any. -/
def toolsField (frame : ChatFrame) : List (String × Json) :=
  if frame.declared.tools.isEmpty then []
  else [("tools", .array (frame.declared.tools.map Schema.ToolDefinition.toJson))]

/-- The runtime parameters under their key, if there are any. -/
def runtimeField (frame : ChatFrame) : List (String × Json) :=
  if frame.declared.runtime.isEmpty then [] else [("runtime", .object frame.declared.runtime)]

/-- A list of messages together with what a frame declares. -/
def withMessages (frame : ChatFrame) (messages : Json) : Json :=
  .object ([("messages", messages)] ++ frame.schemaField "schema" ++ frame.toolsField ++
    frame.runtimeField)

/-- A frame as JSON. -/
def toJson (frame : ChatFrame) : Json := frame.withMessages frame.messagesJson

/-- A message under a line that names its speaker. -/
def banner (message : Message) : String :=
  "===== " ++ message.speaker.name ++ " =====\n\n" ++ message.content.plainText

/-- The text of the messages. A lone message is its text, several have a line with the speaker. -/
def rawText (frame : ChatFrame) : String :=
  match frame.messages with
  | [message] => message.content.plainText
  | messages => "\n\n".intercalate (messages.map banner)

end ChatFrame

end PromptMarkup
