/-
**Component trees under other names.**

Two component trees that differ in ranges and in the tags of some components, where one name is
written for another.

* `ComponentNode.Renames`, `ComponentChild.Renames`: trees that are the same but for that;
* `textOfChildren_renames`: they have the same text;
* `reanchorChildren_renames`, `withoutDocument_renames`, `documentNode_renames`: they stay the same
  where they are moved to another range, and where the root of a document is taken off or put on.
-/

import PromptMarkup.Evaluation.Document
import PromptMarkup.Proofs.Markup.Renaming

namespace PromptMarkup

open Markup (Relabel)

/-! ### Trees -/

mutual

/-- Components that are the same up to ranges and up to tags with the new name for the old one. -/
inductive ComponentNode.Renames (relabel : Relabel) : ComponentNode → ComponentNode → Prop
  | intro {tag word : String} (component : Component) (props : Props)
      {children others : List ComponentChild} (span place : Span) :
      (word = tag ∨ tag = relabel.old ∧ word = relabel.new) →
      List.Forall₂ (ComponentChild.Renames relabel) children others →
      ComponentNode.Renames relabel ⟨component, tag, props, children, span⟩
        ⟨component, word, props, others, place⟩

/-- Children that are the same up to ranges and such tags. -/
inductive ComponentChild.Renames (relabel : Relabel) : ComponentChild → ComponentChild → Prop
  | node {one other : ComponentNode} : one.Renames relabel other →
      ComponentChild.Renames relabel (.node one) (.node other)
  | text (value : String) (span place : Span) (exact : Bool) :
      ComponentChild.Renames relabel (.text ⟨value, span, exact⟩) (.text ⟨value, place, exact⟩)

end

/-- Some children that are the same up to ranges and such tags. -/
abbrev ChildrenRename (relabel : Relabel) : List ComponentChild → List ComponentChild → Prop :=
  List.Forall₂ (ComponentChild.Renames relabel)

section Refl

variable (relabel : Relabel)

mutual

/-- A tree is the same as itself. -/
theorem ComponentNode.Renames.refl (node : ComponentNode) : node.Renames relabel node :=
  match node with
  | ⟨component, _, props, children, span⟩ =>
    .intro component props span span (.inl rfl) (childrenRename_refl children)

theorem ComponentChild.Renames.refl (child : ComponentChild) : child.Renames relabel child :=
  match child with
  | .node node => .node (ComponentNode.Renames.refl node)
  | .text ⟨value, span, exact⟩ => .text value span span exact

theorem childrenRename_refl (children : List ComponentChild) :
    ChildrenRename relabel children children :=
  match children with
  | [] => .nil
  | child :: rest => .cons (ComponentChild.Renames.refl child) (childrenRename_refl rest)

end

end Refl

section AnyName

variable {relabel : Relabel}

mutual

/-- Trees in which nothing is renamed are the same but for any names. -/
theorem ComponentNode.Renames.anyName (one : ComponentNode) {other : ComponentNode}
    (same : one.Renames .none other) : one.Renames relabel other :=
  match one with
  | ⟨component, _, props, children, span⟩ => by
    cases same with
    | intro _ _ _ place tag below =>
      refine .intro component props span place (.inl ?_) (childrenRename_anyName children below)
      rcases tag with same | ⟨rfl, rfl⟩
      · exact same
      · rfl

theorem ComponentChild.Renames.anyName (one : ComponentChild) {other : ComponentChild}
    (same : one.Renames .none other) : one.Renames relabel other :=
  match one with
  | .node node => by
    cases same with
    | node inside => exact .node (ComponentNode.Renames.anyName node inside)
  | .text _ => by
    cases same
    exact .text _ _ _ _

theorem childrenRename_anyName (one : List ComponentChild) {other : List ComponentChild}
    (same : ChildrenRename .none one other) : ChildrenRename relabel one other :=
  match one with
  | [] => by
    cases same
    exact .nil
  | child :: rest => by
    cases same with
    | cons first later =>
      exact .cons (ComponentChild.Renames.anyName child first) (childrenRename_anyName rest later)

end

end AnyName

/-- Texts that are the same up to their range. -/
theorem childrenRename_text (relabel : Relabel) (value : String) (span place : Span)
    (exact : Bool) :
    ChildrenRename relabel [.text ⟨value, span, exact⟩] [.text ⟨value, place, exact⟩] :=
  .cons (.text value span place exact) .nil

section Children

variable {relabel : Relabel}

/-! ### Texts -/

mutual

theorem textOfChildren_renames (one : List ComponentChild) {other : List ComponentChild}
    (same : ChildrenRename relabel one other) : textOfChildren other = textOfChildren one :=
  match one with
  | [] => by
    cases same
    rfl
  | child :: rest => by
    cases same with
    | cons first later =>
      rw [textOfChildren, textOfChildren, ComponentChild.textContent_renames child first,
        textOfChildren_renames rest later]

theorem ComponentChild.textContent_renames (one : ComponentChild) {other : ComponentChild}
    (same : one.Renames relabel other) : other.textContent = one.textContent :=
  match one with
  | .node ⟨_, _, _, children, _⟩ => by
    cases same with
    | node inside =>
      cases inside with
      | intro _ _ _ _ _ below => exact textOfChildren_renames children below
  | .text _ => by
    cases same
    rfl

end

/-! ### Ranges -/

mutual

/-- Trees stay the same where they are moved. -/
theorem reanchorChildren_renames (span place : Span) (one : List ComponentChild)
    {other : List ComponentChild} (same : ChildrenRename relabel one other) :
    ChildrenRename relabel (reanchorChildren span one) (reanchorChildren place other) :=
  match one with
  | [] => by
    cases same
    exact .nil
  | child :: rest => by
    cases same with
    | cons first later =>
      exact .cons (ComponentChild.reanchor_renames span place child first)
        (reanchorChildren_renames span place rest later)

theorem ComponentChild.reanchor_renames (span place : Span) (one : ComponentChild)
    {other : ComponentChild} (same : one.Renames relabel other) :
    (one.reanchor span).Renames relabel (other.reanchor place) :=
  match one with
  | .node ⟨component, _, props, children, _⟩ => by
    cases same with
    | node inside =>
      cases inside with
      | intro _ _ _ _ tag below =>
        exact .node (.intro component props span place tag
          (reanchorChildren_renames span place children below))
  | .text ⟨value, _, _⟩ => by
    cases same
    exact .text value span place false

end

/-! ### Roots -/

/-- A child that is more than blank text. -/
def ComponentChild.isSignificant : ComponentChild → Bool
  | .text chunk => !Text.isBlankText chunk.value
  | .node _ => true

theorem ComponentChild.Renames.isSignificant {one other : ComponentChild}
    (same : one.Renames relabel other) : other.isSignificant = one.isSignificant := by
  cases same <;> rfl

theorem significant_renames {one other : List ComponentChild}
    (same : ChildrenRename relabel one other) :
    ChildrenRename relabel (one.filter ComponentChild.isSignificant)
      (other.filter ComponentChild.isSignificant) := by
  induction same with
  | nil => exact .nil
  | cons first _ ih =>
    rw [List.filter_cons, List.filter_cons, first.isSignificant]
    split
    · exact .cons first ih
    · exact ih

/-- The root of a document is found in both trees. -/
theorem soleDocument?_renames {one other : List ComponentChild}
    (same : ChildrenRename relabel one other) :
    Option.Rel (ComponentNode.Renames relabel) (soleDocument? one) (soleDocument? other) := by
  have kept := significant_renames same
  unfold ComponentChild.isSignificant at kept
  unfold soleDocument?
  simp only
  generalize List.filter _ one = ones at kept ⊢
  generalize List.filter _ other = others at kept ⊢
  cases kept with
  | nil => exact .none
  | cons first later =>
    cases later with
    | cons => cases first <;> exact .none
    | nil =>
      cases first with
      | text => exact .none
      | node inside =>
        cases inside with
        | intro component props span place tag below =>
          simp only
          split
          · exact .some (.intro component props span place tag below)
          · exact .none

namespace Evaluate

theorem withoutDocument_renames {one other : List ComponentChild}
    (same : ChildrenRename relabel one other) :
    ChildrenRename relabel (withoutDocument one) (withoutDocument other) := by
  unfold withoutDocument
  have root := soleDocument?_renames same
  generalize soleDocument? one = first at root
  generalize soleDocument? other = second at root
  cases root with
  | none => exact same
  | some inside =>
    cases inside with
    | intro _ _ _ _ _ below => exact below

end Evaluate

theorem documentNode_renames {one other : List ComponentChild}
    (same : ChildrenRename relabel one other) (span place : Span) :
    (documentNode one span).Renames relabel (documentNode other place) := by
  unfold documentNode
  have root := soleDocument?_renames same
  generalize soleDocument? one = first at root
  generalize soleDocument? other = second at root
  cases root with
  | none => exact .intro rootComponent [] span place (.inl rfl) same
  | some inside => exact inside

end Children

end PromptMarkup
