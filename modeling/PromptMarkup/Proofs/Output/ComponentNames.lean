/-
**Names of a component are interchangeable.**

An element may be written under any name of its component: the tree, what the document declares and
its messages stay the same. The text of a source is read before anything is looked up, though. So
both names have to be literal tags, or neither, and the text of the element must not hold a close
tag of the other name.

* `Prompt.OtherName`, `Element.Spares`: another name of an element, and an element without close
  tags of a name;
* `compile_respelled`: an element under another name of its component;
* `declared_ne_otherNames`: a literal tag under a name that is none, and a literal body with a close
  tag of the other name.
-/

import PromptMarkup.Proofs.Evaluation.TraceRanges
import PromptMarkup.Proofs.Evaluation.TwinDocuments
import PromptMarkup.Proofs.Markup.RenamedDocument
import PromptMarkup.Proofs.Output.LayoutResemblance
import PromptMarkup.Proofs.Output.SingleSpeaker

namespace PromptMarkup

open Markup

/-! ### Names -/

/-- What the source of a prompt evaluates to. -/
def Prompt.evaluation (prompt : Prompt) (scope : Scope) : Evaluation :=
  evaluateDocument prompt.options.settings prompt.options.loader scope prompt.parsed.root

/-- An element of a prompt, and another name of its component. The tag of the element stands for a
component wherever the element is evaluated, which is to say that it is not reported as unknown. -/
structure Prompt.OtherName (prompt : Prompt) (scope : Scope) (element : Element) (name : String) :
    Prop where
  below : (Node.root prompt.parsed.root).Below (.element element)
  proper : isName name.toList = true
  synonyms : prompt.options.settings.registry.Synonyms element.name name
  resolved : Relabel.unknownTag element.opening.nameSpan element.name ∉
    (prompt.compile scope).diagnostics

/-- No close tag of a name stands in the literal body of an element, or in front of a text in it. -/
structure Markup.Element.Spares (element : Element) (name : String) : Prop where
  literal : ∀ body, element.body = .literal body →
    ∀ occurrence, occurrence <:+: body.value.toList → ¬ IsCloseTag name.toList occurrence
  strays : ∀ text, Content.text text ∈ element.children → beginsClose name text.value = false

/-! ### Documents -/

/-- **Names of a component are interchangeable.** An element under another name of its component
leaves the tree of the document as it is but for its tag and for ranges, and what is declared and
all messages as they are. The other name has to be literal if the old one is, and the element must
not hold a close tag of it. -/
theorem compile_respelled (options : CompileOptions) (scope : Scope) (source name : String)
    (element : Element) (other : (Prompt.ofSource options source).OtherName scope element name)
    (same : options.settings.literalTags.contains name =
      options.settings.literalTags.contains element.name)
    (spares : element.Spares name) :
    let before := Prompt.ofSource options source
    let after := Prompt.ofSource options (element.respelled source name)
    (before.evaluation scope).tree.Renames (element.relabel name) (after.evaluation scope).tree ∧
      (after.compile scope).declared = (before.compile scope).declared ∧
      (after.compile scope).messages = (before.compile scope).messages := by
  intro before after
  have contents := parse_renamed other.below other.proper same spares.literal spares.strays
  have known : ¬ (element.relabel name).IsUnknown (before.evaluation scope).diagnostics := by
    rintro ⟨span, member, reported⟩
    obtain rfl := List.mem_singleton.mp member
    exact other.resolved (List.mem_append_left _ (List.mem_append_right _ reported))
  obtain ⟨tree, declared, single⟩ := evaluateDocument_renames options.settings options.loader scope
    contents (fun _ => other.synonyms) known
  have messages := writeMessages_resembles (presentDocument_renames tree)
    (before.evaluation scope).singleSpeaker
  exact ⟨tree, declared,
    (congrArg (writeMessages (after.compile scope).document) single).trans messages⟩

section Plain

variable {source old name : String} {span : Span} {element : Element}

/-- Another name of an element in a prompt without files and names. -/
theorem otherName_plain (member : element ∈ (parse .standard source).root.elements)
    (named : element.name = old) (place : element.opening.nameSpan = span)
    (proper : isName name.toList = true)
    (slots : Registry.standard.slot? old = Registry.standard.slot? name)
    (resolved : Relabel.unknownTag span old ∉
      ((Prompt.plain source).compile (.ofFrame [])).diagnostics) :
    (Prompt.plain source).OtherName (.ofFrame []) element name := by
  subst old span
  exact ⟨Root.below_of_mem_elements member, proper, slots, resolved⟩

end Plain

/-- A bold word, for which there is a longer name. -/
theorem compile_respelled_bold :
    ∃ element, (Prompt.plain "<b>hi</b>").OtherName (.ofFrame []) element "bold" ∧
      element.Spares "bold" ∧ element.respelled "<b>hi</b>" "bold" = "<bold>hi</bold>" ∧
      ((Prompt.plain "<bold>hi</bold>").compile (.ofFrame [])).messages =
        ((Prompt.plain "<b>hi</b>").compile (.ofFrame [])).messages := by
  obtain ⟨element, member, named, place, some, strays, spelled⟩ :
      ∃ element ∈ (parse .standard "<b>hi</b>").root.elements, element.name = "b" ∧
        element.opening.nameSpan = ⟨1, 2⟩ ∧ element.children.isEmpty = false ∧
        (∀ content ∈ element.children, beginsClose "bold" (plainTextOf content) = false) ∧
        element.respelled "<b>hi</b>" "bold" = "<bold>hi</bold>" := by decide +kernel
  have other : (Prompt.plain "<b>hi</b>").OtherName (.ofFrame []) element "bold" :=
    otherName_plain member named place (by decide) (by decide +kernel) (by decide +kernel)
  have same : LiteralTags.standard.contains "bold" =
      LiteralTags.standard.contains element.name := by
    rw [named]
    decide +kernel
  have spares : element.Spares "bold" := by
    refine ⟨fun text literal => ?_, fun text among => strays (.text text) among⟩
    -- A literal body has no contents.
    have none : element.children = [] := by
      unfold Element.children
      rw [literal]
    rw [none] at some
    cases some
  have kept := compile_respelled _ _ _ _ element other same spares
  rw [spelled] at kept
  exact ⟨element, other, spares, spelled, kept.2.2⟩

/-- What a source declares, as text. -/
def declaredText (source : String) : String :=
  ((Prompt.plain source).compile (.ofFrame [])).declared.toJson.pretty ""

/-- A schema with a tag in it, which is read as text under one name and as a tag under the other. -/
def Markup.taggedSchema : String :=
  "<output-schema>\x7b\"type\":\"object\",\"title\":\"<b>hi</b>\"\x7d</output-schema>"

/-- A tool with a close tag of the other name in it, which ends the tool under that name. -/
def Markup.closedTool : String :=
  "<tool-definition name=\"t\">" ++ "\x7b\"type\":\"object\",\"description\":\"</tool>\"\x7d" ++
    "</tool-definition>"

/-- **A declaration under another name** may be another one: where that name is not literal, and
where a literal body holds a close tag of it. -/
theorem declared_ne_otherNames :
    (∃ element, (Prompt.plain taggedSchema).OtherName (.ofFrame []) element "response-schema" ∧
      declaredText (element.respelled taggedSchema "response-schema") ≠
        declaredText taggedSchema) ∧
    ∃ element, (Prompt.plain closedTool).OtherName (.ofFrame []) element "tool" ∧
      LiteralTags.standard.contains "tool" = LiteralTags.standard.contains element.name ∧
      declaredText (element.respelled closedTool "tool") ≠ declaredText closedTool := by
  refine ⟨?_, ?_⟩
  · obtain ⟨element, member, named, place, differ⟩ :
        ∃ element ∈ (parse .standard taggedSchema).root.elements,
          element.name = "output-schema" ∧ element.opening.nameSpan = ⟨1, 14⟩ ∧
          declaredText (element.respelled taggedSchema "response-schema") ≠
            declaredText taggedSchema := by decide +kernel
    exact ⟨element, otherName_plain member named place (by decide) (by decide +kernel)
      (by decide +kernel), differ⟩
  · obtain ⟨element, member, named, place, same, differ⟩ :
        ∃ element ∈ (parse .standard closedTool).root.elements,
          element.name = "tool-definition" ∧ element.opening.nameSpan = ⟨1, 16⟩ ∧
          LiteralTags.standard.contains "tool" = LiteralTags.standard.contains element.name ∧
          declaredText (element.respelled closedTool "tool") ≠ declaredText closedTool := by
      decide +kernel
    exact ⟨element, otherName_plain member named place (by decide) (by decide +kernel)
      (by decide +kernel), same, differ⟩

end PromptMarkup
