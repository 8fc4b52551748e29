/-
**Trees under other names.**

Two trees that differ in ranges, in comments and in the names of some elements.

* `Relabel`: the ranges of the names that are written in another way, and the other name;
* `Attribute.Resembles`: attributes that are the same up to ranges; `attribute?_resembles`: they are
  found in the same places;
* `OpenTag.Renames`, `Content.Renames`, `Body.Renames`, `Element.Renames`: trees that are the same
  but for such names;
* `Content.Renames.refl`: a tree is the same as itself;
* `Body.Renames.plainText`: both trees have the same text.
-/

import Mathlib.Data.List.Forall2
import PromptMarkup.Markup.Tree

namespace PromptMarkup.Markup

/-! ### Names -/

/-- An old name, the ranges where it is written in another way in open tags and in close tags, and
the new name there. -/
structure Relabel where
  opens : List Span
  closes : List Span
  old : String
  new : String

namespace Relabel

/-- Nothing is written in another way. -/
def none : Relabel := ⟨[], [], "", ""⟩

/-- The name of an open tag and what is written instead of it: the new name for the old one where
that is replaced, and the same name elsewhere. -/
def Opens (relabel : Relabel) (span : Span) (name word : String) : Prop :=
  if span ∈ relabel.opens then name = relabel.old ∧ word = relabel.new else word = name

/-- The name of a close tag and what is written instead of it. The letters of a close tag may be of
the other case. -/
def Closes (relabel : Relabel) (span : Span) (name word : String) : Prop :=
  if span ∈ relabel.closes then word = relabel.new else word = name

end Relabel

/-! ### Attributes -/

/-- Templates with the same expression. -/
def Template.Resembles (one other : Template) : Prop := other.expression = one.expression

/-- Parts of quoted values that are the same up to ranges. -/
inductive QuotedPart.Resembles : QuotedPart → QuotedPart → Prop
  | text {one other : TextNode} : other.value = one.value →
      QuotedPart.Resembles (.text one) (.text other)
  | template {one other : Template} : one.Resembles other →
      QuotedPart.Resembles (.template one) (.template other)

/-- Values that are the same up to ranges. -/
inductive AttributeValue.Resembles : AttributeValue → AttributeValue → Prop
  | quoted {one other : Quoted} : other.value = one.value →
      AttributeValue.Resembles (.quoted one) (.quoted other)
  | quotedTemplate {one other : QuotedTemplate} :
      List.Forall₂ QuotedPart.Resembles one.parts other.parts →
      AttributeValue.Resembles (.quotedTemplate one) (.quotedTemplate other)
  | template {one other : Template} : one.Resembles other →
      AttributeValue.Resembles (.template one) (.template other)
  | forIterator {one other : ForIterator} : other.iterator = one.iterator →
      other.collection = one.collection →
      AttributeValue.Resembles (.forIterator one) (.forIterator other)

/-- Attributes that are the same up to ranges. -/
structure Attribute.Resembles (one other : Attribute) : Prop where
  key : other.key = one.key
  value : Option.Rel AttributeValue.Resembles one.value other.value

theorem Template.Resembles.refl (node : Template) : node.Resembles node := rfl

theorem QuotedPart.Resembles.refl (part : QuotedPart) : part.Resembles part := by
  cases part with
  | text node => exact .text rfl
  | template node => exact .template (.refl node)

theorem AttributeValue.Resembles.refl (value : AttributeValue) : value.Resembles value := by
  cases value with
  | quoted node => exact .quoted rfl
  | quotedTemplate node => exact .quotedTemplate (List.forall₂_same.mpr fun part _ => .refl part)
  | template node => exact .template (.refl node)
  | forIterator node => exact .forIterator rfl rfl

theorem Attribute.Resembles.refl (pair : Attribute) : pair.Resembles pair := by
  refine ⟨rfl, ?_⟩
  cases pair.value with
  | none => exact .none
  | some value => exact .some (.refl value)

/-- A value that is one template stays one. -/
theorem soleTemplate?_resembles {one other : QuotedTemplate}
    (parts : List.Forall₂ QuotedPart.Resembles one.parts other.parts) :
    Option.Rel Template.Resembles one.soleTemplate? other.soleTemplate? := by
  obtain ⟨ones, _⟩ := one
  obtain ⟨others, _⟩ := other
  cases parts with
  | nil => exact .none
  | cons first rest =>
    cases rest with
    | nil =>
      cases first with
      | text => exact .none
      | template same => exact .some same
    | cons => cases first <;> exact .none

/-! ### Elements -/

/-- Open tags that are the same up to ranges, but for their name if it is renamed. -/
structure OpenTag.Renames (relabel : Relabel) (one other : OpenTag) : Prop where
  name : relabel.Opens one.nameSpan one.name other.name
  attributes : List.Forall₂ Attribute.Resembles one.attributes other.attributes

mutual

/-- Contents that are the same up to ranges and comments, but for the names of elements that are
renamed. -/
inductive Content.Renames (relabel : Relabel) : Content → Content → Prop
  | element {one other : Element} : one.opening.Renames relabel other.opening →
      Body.Renames relabel one.body other.body →
      Content.Renames relabel (.element one) (.element other)
  | template {one other : Template} : one.Resembles other →
      Content.Renames relabel (.template one) (.template other)
  | comment (one other : Comment) : Content.Renames relabel (.comment one) (.comment other)
  | pragma {one other : Pragma} : other.directive = one.directive →
      other.options = one.options → Content.Renames relabel (.pragma one) (.pragma other)
  | text {one other : TextNode} : other.value = one.value →
      Content.Renames relabel (.text one) (.text other)

/-- Bodies that are the same up to ranges and comments, but for the names of elements that are
renamed. -/
inductive Body.Renames (relabel : Relabel) : Body → Body → Prop
  | selfClosing : Body.Renames relabel .selfClosing .selfClosing
  | literal {one other : TextNode} : other.value = one.value →
      Body.Renames relabel (.literal one) (.literal other)
  | children {one other : List Content} : List.Forall₂ (Content.Renames relabel) one other →
      Body.Renames relabel (.children one) (.children other)

end

/-- Elements that are the same up to ranges and comments, but for the names that are renamed. -/
structure Element.Renames (relabel : Relabel) (one other : Element) : Prop where
  opening : one.opening.Renames relabel other.opening
  body : one.body.Renames relabel other.body

/-- **The attribute of a key** is found in the same place. -/
theorem attribute?_resembles {one other : Element}
    (pairs : List.Forall₂ Attribute.Resembles one.opening.attributes other.opening.attributes)
    (key : String) :
    Option.Rel Attribute.Resembles (one.attribute? key) (other.attribute? key) := by
  unfold Element.attribute?
  generalize one.opening.attributes = ones at pairs
  generalize other.opening.attributes = others at pairs
  induction pairs with
  | nil => exact .none
  | cons first _ ih =>
    rw [List.find?_cons, List.find?_cons, first.key]
    split
    · exact .some first
    · exact ih

/-! ### The same tree -/

theorem Relabel.opens_none (span : Span) (name : String) : Relabel.none.Opens span name name := by
  unfold Relabel.Opens
  rw [if_neg (show span ∉ Relabel.none.opens from List.not_mem_nil)]

theorem OpenTag.Renames.refl (tag : OpenTag) : tag.Renames .none tag :=
  ⟨Relabel.opens_none _ _, List.forall₂_same.mpr fun pair _ => .refl pair⟩

mutual

/-- A tree is the same as itself. -/
theorem Content.Renames.refl (content : Content) : content.Renames .none content :=
  match content with
  | .element ⟨opening, body, _, _⟩ => .element (.refl opening) (Body.Renames.refl body)
  | .template node => .template (.refl node)
  | .comment node => .comment node node
  | .pragma _ => .pragma rfl rfl
  | .text _ => .text rfl

theorem Body.Renames.refl (body : Body) : body.Renames .none body :=
  match body with
  | .selfClosing => .selfClosing
  | .literal _ => .literal rfl
  | .children contents => .children (renames_refl contents)

theorem renames_refl (contents : List Content) :
    List.Forall₂ (Content.Renames .none) contents contents :=
  match contents with
  | [] => .nil
  | content :: rest => .cons (Content.Renames.refl content) (renames_refl rest)

end

/-! ### Texts -/

section Texts

variable {relabel : Relabel}

mutual

theorem plainText_renames (one : List Content) {other : List Content}
    (same : List.Forall₂ (Content.Renames relabel) one other) :
    plainText other = plainText one :=
  match one with
  | [] => by
    cases same
    rfl
  | content :: rest => by
    cases same with
    | cons first later =>
      rw [plainText, plainText, plainTextOf_renames content first, plainText_renames rest later]

theorem plainTextOf_renames (one : Content) {other : Content} (same : one.Renames relabel other) :
    plainTextOf other = plainTextOf one :=
  match one with
  | .element ⟨_, body, _, _⟩ => by
    cases same with
    | @element _ other _ inside =>
      obtain ⟨_, _, _, _⟩ := other
      exact plainTextIn_renames body inside
  | .text _ => by
    cases same with
    | text same => exact same
  | .template _ => by
    cases same
    rfl
  | .comment _ => by
    cases same
    rfl
  | .pragma _ => by
    cases same
    rfl

theorem plainTextIn_renames (one : Body) {other : Body} (same : one.Renames relabel other) :
    plainTextIn other = plainTextIn one :=
  match one with
  | .children contents => by
    cases same with
    | children inside => exact plainText_renames contents inside
  | .selfClosing => by
    cases same
    rfl
  | .literal _ => by
    cases same
    rfl

end

/-- **The text of a body** is the same. -/
theorem Body.Renames.plainText {one other : Body} (same : one.Renames relabel other) :
    other.plainText = one.plainText := by
  cases same with
  | selfClosing => rfl
  | literal same => exact same
  | children inside => exact plainText_renames _ inside

end Texts

end PromptMarkup.Markup
