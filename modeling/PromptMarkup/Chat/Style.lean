/-
**Message lists of chat formats.**

Chat formats keep what is said, the calls of tools and the answers of tools apart. A message of a
frame falls apart into these, and its calls join the message in front of them if that is one of the
model which calls nothing yet.

* `SpokenPart`, `ToolCall`, `ToolAnswer`: what a message falls apart into;
* `ChatStyle`: how a format writes messages;
* `ChatStyle.messages`: the messages of a frame in a style.
-/

import PromptMarkup.Output.Part

namespace PromptMarkup

/-- A part of what is said. -/
inductive SpokenPart where
  | text (value : String)
  | media (media : Media)
  deriving DecidableEq, Repr

/-- The content of a message whose parts a format writes by `partJson`; a lone text stands for
itself. -/
def SpokenPart.contentJson (partJson : SpokenPart → Json) : List SpokenPart → Json
  | [.text value] => .string value
  | parts => .array (parts.map partJson)

/-- A call of a tool. -/
structure ToolCall where
  id : String
  name : String
  parameters : Json

/-- What a tool answers to a call. -/
structure ToolAnswer where
  id : String
  name : String
  content : String

/-! ## Parts -/

namespace RichPart

/-- What is said in a part; an empty text is nothing. -/
def spoken? : RichPart → Option SpokenPart
  | text value => if value.isEmpty then none else some (.text value)
  | attachment (.media clip) => some (.media clip)
  | attachment _ => none

/-- The call in a part. -/
def call? : RichPart → Option ToolCall
  | attachment (.toolRequest id name parameters) => some ⟨id, name, parameters⟩
  | _ => none

/-- The answer in a part. -/
def answer? : RichPart → Option ToolAnswer
  | attachment (.toolResponse id name content) => some ⟨id, name, content⟩
  | _ => none

end RichPart

namespace Message

/-- What is said in a message. -/
def spoken (message : Message) : List SpokenPart := message.content.parts.filterMap RichPart.spoken?

/-- The calls in a message. -/
def calls (message : Message) : List ToolCall := message.content.parts.filterMap RichPart.call?

/-- The answers in a message. -/
def answers (message : Message) : List ToolAnswer :=
  message.content.parts.filterMap RichPart.answer?

end Message

/-! ## Styles -/

variable {α : Type}

/-- How a format writes messages. -/
structure ChatStyle (α : Type) where
  /-- The message in which a speaker says something. -/
  speech (speaker : Speaker) (parts : List SpokenPart) : α
  /-- A message is one of the model and calls nothing. -/
  awaitsCalls (message : α) : Bool
  /-- A message with calls put into it. -/
  attach (calls : List ToolCall) (message : α) : α
  /-- A message of the model that does nothing but call. -/
  calls (calls : List ToolCall) : α
  /-- The message in which a tool answers. -/
  answer (answer : ToolAnswer) : α

namespace ChatStyle

variable (style : ChatStyle α)

/-- The messages with something said at the end, unless nothing is. -/
def addSpeech (speaker : Speaker) (parts : List SpokenPart) (messages : List α) : List α :=
  if parts.isEmpty then messages else messages ++ [style.speech speaker parts]

/-- The messages with calls at the end, unless there are none. -/
def addCalls (calls : List ToolCall) (messages : List α) : List α :=
  if calls.isEmpty then messages
  else
    match messages.getLast?.filter style.awaitsCalls with
    | some previous => messages.dropLast ++ [style.attach calls previous]
    | none => messages ++ [style.calls calls]

/-- The messages with those of one more message of the frame. -/
def addMessage (messages : List α) (message : Message) : List α :=
  style.addCalls message.calls (style.addSpeech message.speaker message.spoken messages) ++
    message.answers.map style.answer

/-- The messages of a frame. -/
def messages (messages : List Message) : List α := messages.foldl style.addMessage []

end ChatStyle

end PromptMarkup
