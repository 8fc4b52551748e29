/-
**What a collector holds.**

The declarations of a document are collected one by one, and those of an included document all at
once. Either way the collector holds what the declarations are in the order that they are met in,
and it has failed just when one of them is in error or there are two schemas of the response.

* `Declaration.response?`, `Declaration.tool?`, `Declaration.parameter?`, `HasFault`: what
  declarations are, however they are collected;
* `Collector.Holds`: a collector holds declarations; `Holds.add` and `Holds.absorb` are one more
  declaration and those of an included document;
* `IsReported`, `Collector.Reports`: failures are reported.
-/

import PromptMarkup.Proofs.Value.Fields
import PromptMarkup.Schema.Collector

namespace PromptMarkup

namespace Schema

/-! ### Declarations -/

namespace Declaration

/-- The schema that is declared for the response. -/
def response? : Declaration → Option SchemaDocument
  | response schema => some schema
  | _ => none

/-- The tool that is declared, with the blanks around its name left out. -/
def tool? : Declaration → Option ToolDefinition
  | tool name description parameters =>
    some ⟨(name.map Text.trimmed).getD "", description, parameters⟩
  | _ => none

/-- The runtime parameter that is declared. -/
def parameter? : Declaration → Option (String × Json)
  | parameter key value => some (Markup.camelCase key, coerceParameter value)
  | _ => none

/-- A declaration is in error on its own: it is refused, or a tool has no name. -/
def IsFaulty : Declaration → Prop
  | refused _ => True
  | tool name _ _ => (name.map Text.trimmed).getD "" = ""
  | _ => False

end Declaration

/-- Declarations are in error: one of them is, or there are two schemas of the response. -/
def HasFault (declarations : List Declaration) : Prop :=
  (∃ declaration ∈ declarations, declaration.IsFaulty) ∨
    1 < (declarations.filterMap Declaration.response?).length

theorem hasFault_append (first rest : List Declaration) :
    HasFault (first ++ rest) ↔ HasFault first ∨ HasFault rest ∨
      (first.filterMap Declaration.response?).head?.isSome ∧
        (rest.filterMap Declaration.response?).head?.isSome := by
  have faulty : (∃ declaration ∈ first ++ rest, declaration.IsFaulty) ↔
      (∃ declaration ∈ first, declaration.IsFaulty) ∨
        ∃ declaration ∈ rest, declaration.IsFaulty := by
    simp only [List.mem_append, or_and_right, exists_or]
  unfold HasFault
  rw [faulty, List.filterMap_append, List.length_append]
  generalize first.filterMap Declaration.response? = schemas
  generalize rest.filterMap Declaration.response? = others
  cases schemas with
  | nil => simp [or_assoc]
  | cons schema schemas =>
    cases others with
    | nil => simp [or_right_comm]
    | cons other others =>
      refine iff_of_true (.inr ?_) (.inr (.inr ⟨rfl, rfl⟩))
      simp only [List.length_cons]
      omega

theorem hasFault_singleton (declaration : Declaration) :
    HasFault [declaration] ↔ declaration.IsFaulty := by
  have few : ([declaration].filterMap Declaration.response?).length ≤ 1 :=
    List.length_filterMap_le _ _
  simp only [HasFault, List.mem_singleton, exists_eq_left]
  exact or_iff_left (Nat.not_lt.mpr few)

/-- There is an error in a declaration among diagnostics. -/
def IsReported (diagnostics : List Diagnostic) : Prop :=
  ∃ diagnostic ∈ diagnostics, diagnostic.severity = .error ∧ diagnostic.stage = .schema

theorem isReported_append (first rest : List Diagnostic) :
    IsReported (first ++ rest) ↔ IsReported first ∨ IsReported rest := by
  simp only [IsReported, List.mem_append, or_and_right, exists_or]

/-- Other stages report no declarations. -/
theorem not_isReported {diagnostics : List Diagnostic}
    (others : ∀ diagnostic ∈ diagnostics, diagnostic.stage ≠ .schema) : ¬ IsReported diagnostics :=
  fun ⟨diagnostic, member, _, stage⟩ => others diagnostic member stage

namespace Collector

variable {collector other : Collector} {declarations others : List Declaration}

/-! ### What one more declaration changes -/

theorem add_response (collector : Collector) (span : Span) (declaration : Declaration) :
    (collector.add span declaration).1.responseSchema =
      collector.responseSchema.or declaration.response? := by
  cases declaration with
  | response schema =>
    simp only [add, setResponse, Declaration.response?]
    cases found : collector.responseSchema with
    | none => rfl
    | some first => exact found
  | tool name description parameters =>
    simp only [add, addTool]
    split <;> exact (Option.or_none).symm
  | refused | parameter => exact (Option.or_none).symm

theorem add_tools (collector : Collector) (span : Span) (declaration : Declaration) :
    (collector.add span declaration).1.tools =
      collector.tools ++ declaration.tool?.toList.filter fun tool => tool.name ≠ "" := by
  cases declaration with
  | response schema =>
    simp only [add, setResponse]
    split <;> exact (List.append_nil _).symm
  | tool name description parameters =>
    simp only [add, addTool, Declaration.tool?, Option.toList_some, String.isEmpty_iff]
    by_cases nameless : (name.map Text.trimmed).getD "" = ""
    · simp [nameless, fail]
    · simp [nameless]
  | refused | parameter => exact (List.append_nil _).symm

theorem add_runtime (collector : Collector) (span : Span) (declaration : Declaration) :
    (collector.add span declaration).1.runtime =
      Fields.insertAll collector.runtime declaration.parameter?.toList := by
  cases declaration with
  | response schema =>
    simp only [add, setResponse]
    split <;> rfl
  | tool name description parameters =>
    simp only [add, addTool]
    split <;> rfl
  | refused | parameter => rfl

/-- A declaration fails if it is in error on its own, or a second schema. -/
theorem add_failed (collector : Collector) (span : Span) (declaration : Declaration) :
    (collector.add span declaration).1.failed = true ↔ collector.failed = true ∨
      declaration.IsFaulty ∨
        collector.responseSchema.isSome = true ∧ declaration.response?.isSome = true := by
  cases declaration with
  | refused message => simp [add, fail, Declaration.IsFaulty]
  | response schema =>
    simp only [add, setResponse, Declaration.IsFaulty, Declaration.response?]
    split
    next found => simp [fail, found]
    next none => simp [none]
  | tool name description parameters =>
    simp only [add, addTool, Declaration.IsFaulty, Declaration.response?, String.isEmpty_iff]
    split
    next nameless => simp [fail, nameless]
    next named => simp [named]
  | parameter key value => simp [add, addRuntime, Declaration.IsFaulty, Declaration.response?]

/-! ### What an included document changes -/

theorem absorb_response (collector other : Collector) (span : Span) :
    (collector.absorb other span).1.responseSchema =
      collector.responseSchema.or other.responseSchema := by
  unfold absorb
  cases other.responseSchema with
  | none => exact (Option.or_none).symm
  | some schema => exact add_response _ span (.response schema)

theorem absorb_tools (collector other : Collector) (span : Span) :
    (collector.absorb other span).1.tools = collector.tools ++ other.tools := by
  unfold absorb
  cases other.responseSchema with
  | none => rfl
  | some schema =>
    have kept := (add_tools { collector with failed := collector.failed || other.failed } span
      (.response schema)).trans (List.append_nil _)
    exact congrArg (· ++ other.tools) kept

theorem absorb_runtime (collector other : Collector) (span : Span) :
    (collector.absorb other span).1.runtime =
      Fields.insertAll collector.runtime other.runtime := by
  unfold absorb
  cases other.responseSchema with
  | none => rfl
  | some schema =>
    exact congrArg (Fields.insertAll · other.runtime) (add_runtime _ span (.response schema))

theorem absorb_failed (collector other : Collector) (span : Span) :
    (collector.absorb other span).1.failed = true ↔ collector.failed = true ∨
      other.failed = true ∨
        collector.responseSchema.isSome = true ∧ other.responseSchema.isSome = true := by
  unfold absorb
  cases other.responseSchema with
  | none => simp
  | some schema =>
    refine (add_failed _ span (.response schema)).trans ?_
    simp [Declaration.IsFaulty, Declaration.response?, or_assoc]

/-! ### What a collector holds -/

/-- A collector holds declarations. -/
structure Holds (collector : Collector) (declarations : List Declaration) : Prop where
  response : collector.responseSchema = (declarations.filterMap Declaration.response?).head?
  tools : collector.tools =
    (declarations.filterMap Declaration.tool?).filter fun tool => tool.name ≠ ""
  runtime : collector.runtime =
    Fields.insertAll [] (declarations.filterMap Declaration.parameter?)
  failed : collector.failed = true ↔ HasFault declarations

theorem holds_empty : empty.Holds [] := ⟨rfl, rfl, rfl, by simp [HasFault, empty]⟩

/-- **One more declaration.** -/
theorem Holds.add (holds : collector.Holds declarations) (span : Span)
    (declaration : Declaration) :
    (collector.add span declaration).1.Holds (declarations ++ [declaration]) := by
  have single : ([declaration].filterMap Declaration.response?).head? = declaration.response? := by
    cases same : declaration.response? with
    | none => rw [List.filterMap_cons_none same, List.filterMap_nil, List.head?_nil]
    | some schema => rw [List.filterMap_cons_some same, List.head?_cons]
  refine ⟨?_, ?_, ?_, ?_⟩
  · rw [add_response, holds.response, List.filterMap_append, List.head?_append, single]
  · rw [add_tools, holds.tools, List.filterMap_append, List.filter_append]
    rfl
  · rw [add_runtime, holds.runtime, List.filterMap_append]
    exact List.foldl_append.symm
  · rw [add_failed, hasFault_append, hasFault_singleton, holds.failed, holds.response, single]

/-- **The declarations of an included document** come behind those that there are. -/
theorem Holds.absorb (holds : collector.Holds declarations) (inside : other.Holds others)
    (span : Span) : (collector.absorb other span).1.Holds (declarations ++ others) := by
  refine ⟨?_, ?_, ?_, ?_⟩
  · rw [absorb_response, holds.response, inside.response, List.filterMap_append, List.head?_append]
  · rw [absorb_tools, holds.tools, inside.tools, List.filterMap_append, List.filter_append]
  · rw [absorb_runtime, holds.runtime, inside.runtime, List.filterMap_append,
      Fields.insertAll_insertAll]
    exact List.foldl_append.symm
  · rw [absorb_failed, hasFault_append, holds.failed, inside.failed, holds.response,
      inside.response]

/-- There is one schema of the response at most among declarations that are not in error. -/
theorem Holds.response_toList (holds : collector.Holds declarations)
    (sound : ¬ HasFault declarations) :
    collector.responseSchema.toList = declarations.filterMap Declaration.response? := by
  have few := Nat.not_lt.mp (not_or.mp sound).2
  rw [holds.response]
  match schemas : declarations.filterMap Declaration.response? with
  | [] => rfl
  | [schema] => rfl
  | first :: second :: rest =>
    rw [schemas] at few
    simp at few

/-- All tools have names among declarations that are not in error. -/
theorem Holds.tools_eq (holds : collector.Holds declarations) (sound : ¬ HasFault declarations) :
    collector.tools = declarations.filterMap Declaration.tool? := by
  rw [holds.tools]
  refine List.filter_eq_self.mpr fun tool member => decide_eq_true fun nameless => ?_
  obtain ⟨declaration, inside, found⟩ := List.mem_filterMap.mp member
  cases declaration with
  | tool name description parameters =>
    obtain rfl := Option.some.inj found
    exact sound (.inl ⟨_, inside, nameless⟩)
  | refused | response | parameter => cases found

/-- Tools have the names that are written for them, without the blanks around them. -/
theorem Holds.name_trimmed (holds : collector.Holds declarations) {tool : ToolDefinition}
    (member : tool ∈ collector.tools) :
    tool.name ≠ "" ∧ ∃ written, tool.name = Text.trimmed written := by
  rw [holds.tools] at member
  obtain ⟨inside, named⟩ := List.mem_filter.mp member
  refine ⟨of_decide_eq_true named, ?_⟩
  obtain ⟨declaration, _, found⟩ := List.mem_filterMap.mp inside
  cases declaration with
  | tool name description parameters =>
    obtain rfl := Option.some.inj found
    cases name with
    | none => exact absurd rfl (of_decide_eq_true named)
    | some written => exact ⟨written, rfl⟩
  | refused | response | parameter => cases found

/-! ### Reports -/

/-- A step of a collector fails just when it reports an error. -/
def Reports (collector : Collector) (result : Collector × List Diagnostic) : Prop :=
  result.1.failed = true ↔ collector.failed = true ∨ IsReported result.2

theorem reports_fail (collector : Collector) (span : Span) (message : String) :
    collector.Reports (collector.fail span message) :=
  iff_of_true rfl (.inr ⟨_, List.mem_singleton_self _, rfl, rfl⟩)

theorem reports_of_eq (same : other.failed = collector.failed) : collector.Reports (other, []) := by
  simp [Reports, IsReported, same]

theorem reports_setResponse (collector : Collector) (schema : SchemaDocument) (span : Span) :
    collector.Reports (collector.setResponse schema span) := by
  unfold setResponse
  split
  · exact reports_fail collector span _
  · exact reports_of_eq rfl

/-- **A declaration that fails is reported**, and no other one is. -/
theorem reports_add (collector : Collector) (span : Span) (declaration : Declaration) :
    collector.Reports (collector.add span declaration) := by
  cases declaration with
  | refused message => exact reports_fail collector span message
  | response schema => exact reports_setResponse collector schema span
  | tool name description parameters =>
    simp only [add, addTool]
    split
    · exact reports_fail collector span _
    · exact reports_of_eq rfl
  | parameter key value => exact reports_of_eq rfl

/-- **A second schema in an included document is reported** besides what has been reported there. -/
theorem reports_absorb (collector other : Collector) (span : Span) :
    { collector with failed := collector.failed || other.failed }.Reports
      (collector.absorb other span) := by
  unfold absorb
  cases other.responseSchema with
  | none => exact reports_of_eq rfl
  | some schema => exact reports_setResponse _ schema span

end Collector

end Schema

end PromptMarkup
