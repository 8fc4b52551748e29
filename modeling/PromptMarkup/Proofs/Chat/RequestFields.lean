/-
**The fields of a request.**

The runtime parameters of a frame are put into a request last, under their keys in snake case. What
stands there under that name is replaced, whether the library wrote it or another parameter did. So
nothing is lost exactly when whoever shares a name agrees on the value.

* `get?_request`: what stands in a request under a name;
* `KeepsFields`, `Agrees`: no part of a request replaces another one, and when that is so;
* `get?_own`, `get?_parameter`: what stands under the names of the library, and of parameters;
* `keepsFields_iff`: a request keeps its parts exactly when those of one name agree;
* `keepsFields_of_apart`: keys that stay apart, and away from the names of the library, suffice.
-/

import PromptMarkup.Chat.OpenAi
import PromptMarkup.Proofs.Output.SingleSpeaker
import PromptMarkup.Proofs.Value.Fields

namespace PromptMarkup

/-! ### Requests -/

namespace OpenAi

/-- The names of the fields that the library writes itself. -/
def ownNames : List String := ["messages", "response_format", "tools"]

/-- The runtime parameters of a frame under the names they have in a request. -/
def parameters (frame : ChatFrame) : List (String × Json) :=
  frame.declared.runtime.map fun (key, value) => (Markup.snakeCase key, value)

/-- Under a name stands the last runtime parameter of that name, or else what the library wrote. -/
theorem get?_request (frame : ChatFrame) (name : String) :
    (request frame).get? name =
      ((parameters frame).reverse.lookup name).or ((ownFields frame).lookup name) :=
  Fields.lookup_insertAll _ _ _

theorem lookup_messages (frame : ChatFrame) :
    (ownFields frame).lookup "messages" = some (.array (style.messages frame.messages)) := by
  simp [ownFields]

theorem lookup_responseFormat (frame : ChatFrame) :
    (ownFields frame).lookup "response_format" =
      frame.declared.responseSchema.map responseFormat := by
  cases found : frame.declared.responseSchema <;> by_cases none : frame.declared.tools = [] <;>
    simp [ownFields, List.lookup_cons, found, none]

theorem lookup_tools (frame : ChatFrame) :
    (ownFields frame).lookup "tools" =
      if frame.declared.tools.isEmpty then none
      else some (.array (frame.declared.tools.map toolJson)) := by
  cases found : frame.declared.responseSchema <;> by_cases none : frame.declared.tools = [] <;>
    simp [ownFields, List.lookup_cons, found, none]

/-- **No part of a request replaces another one**: the messages, the format of the response and the
tools are those of the frame, and every runtime parameter is there. -/
structure KeepsFields (frame : ChatFrame) : Prop where
  messages : (request frame).get? "messages" = some (.array (style.messages frame.messages))
  responseFormat : (request frame).get? "response_format" =
    frame.declared.responseSchema.map responseFormat
  tools : (request frame).get? "tools" =
    if frame.declared.tools.isEmpty then none
    else some (.array (frame.declared.tools.map toolJson))
  runtime : ∀ key value, (key, value) ∈ frame.declared.runtime →
    (request frame).get? (Markup.snakeCase key) = some value

/-- Whoever shares a name in a request agrees on the value: a runtime parameter that has the name of
a field of the library in snake case, with what the library writes there, and two runtime parameters
of one name with each other. -/
structure Agrees (frame : ChatFrame) : Prop where
  own : ∀ key value, (key, value) ∈ frame.declared.runtime → Markup.snakeCase key ∈ ownNames →
    (ownFields frame).lookup (Markup.snakeCase key) = some value
  shared : ∀ key value other second, (key, value) ∈ frame.declared.runtime →
    (other, second) ∈ frame.declared.runtime →
      Markup.snakeCase key = Markup.snakeCase other → value = second

/-- What is found among the parameters under a name is the value of one of that name. -/
theorem exists_parameter {frame : ChatFrame} {name : String} {value : Json}
    (found : (parameters frame).reverse.lookup name = some value) :
    ∃ key, (key, value) ∈ frame.declared.runtime ∧ Markup.snakeCase key = name := by
  simpa [parameters] using Fields.mem_of_lookup found

theorem get?_own {frame : ChatFrame} (agrees : Agrees frame) {name : String}
    (own : name ∈ ownNames) : (request frame).get? name = (ownFields frame).lookup name := by
  rw [get?_request]
  cases found : (parameters frame).reverse.lookup name with
  | none => rfl
  | some value =>
    obtain ⟨key, member, rfl⟩ := exists_parameter found
    exact (agrees.own key value member own).symm

theorem mem_parameters {frame : ChatFrame} {key : String} {value : Json}
    (member : (key, value) ∈ frame.declared.runtime) :
    (Markup.snakeCase key, value) ∈ parameters frame :=
  List.mem_map.mpr ⟨_, member, rfl⟩

theorem get?_parameter {frame : ChatFrame} (agrees : Agrees frame) {key : String} {value : Json}
    (member : (key, value) ∈ frame.declared.runtime) :
    (request frame).get? (Markup.snakeCase key) = some value := by
  obtain ⟨last, found⟩ := Fields.exists_lookup (List.mem_reverse.mpr (mem_parameters member))
  obtain ⟨other, present, written⟩ := exists_parameter found
  rw [get?_request, found, Option.some_or, agrees.shared other last key value present member written]

theorem keepsFields_of_agrees {frame : ChatFrame} (agrees : Agrees frame) : KeepsFields frame where
  messages := by rw [get?_own agrees (by decide), lookup_messages]
  responseFormat := by rw [get?_own agrees (by decide), lookup_responseFormat]
  tools := by rw [get?_own agrees (by decide), lookup_tools]
  runtime _ _ member := get?_parameter agrees member

theorem KeepsFields.get?_own {frame : ChatFrame} (kept : KeepsFields frame) {name : String}
    (own : name ∈ ownNames) : (request frame).get? name = (ownFields frame).lookup name := by
  rcases List.mem_cons.mp own with rfl | own
  · rw [kept.messages, lookup_messages]
  · rcases List.mem_cons.mp own with rfl | own
    · rw [kept.responseFormat, lookup_responseFormat]
    · rw [List.mem_singleton.mp own, kept.tools, lookup_tools]

/-- **A request keeps its parts exactly when whoever shares a name agrees on the value.** -/
theorem keepsFields_iff (frame : ChatFrame) : KeepsFields frame ↔ Agrees frame := by
  refine ⟨fun kept => ⟨fun key value member own => ?_, ?_⟩, keepsFields_of_agrees⟩
  · rw [← kept.get?_own own, kept.runtime key value member]
  · intro key value other second member also same
    have found := kept.runtime other second also
    rw [← same, kept.runtime key value member] at found
    exact Option.some.inj found

/-- A runtime parameter of a document takes the place of its messages. -/
theorem not_keepsFields_messages :
    ¬ KeepsFields
      (((Prompt.plain "hi<runtime messages=\"none\"/>").compile (.ofFrame [])).frame true) := by
  intro kept
  have found : (((request
      (((Prompt.plain "hi<runtime messages=\"none\"/>").compile (.ofFrame [])).frame true)).get?
        "messages").bind Json.string?) = some "none" := by decide +kernel
  rw [kept.messages] at found
  cases found

/-- Parameters whose names differ from each other and from those of the library are all kept. -/
theorem keepsFields_of_apart {frame : ChatFrame} (apart : ((parameters frame).map Prod.fst).Nodup)
    (free : ∀ name ∈ ownNames, name ∉ (parameters frame).map Prod.fst) : KeepsFields frame := by
  refine keepsFields_of_agrees ⟨fun key value member own => ?_, ?_⟩
  · exact absurd (List.mem_map_of_mem (mem_parameters member)) (free _ own)
  · intro key value other second member also same
    exact congrArg Prod.snd
      (List.inj_on_of_nodup_map apart (mem_parameters member) (mem_parameters also) same)

end OpenAi

end PromptMarkup
