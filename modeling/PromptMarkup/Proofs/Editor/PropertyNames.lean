/-
**Completions of the names of props.**

The names of props are completed in an open tag: where the key of an attribute is written, and where
the cursor touches neither an attribute nor the name of the tag. What is offered are the props of
the component, but not those that another attribute names in letters of either case. An attribute is
bound to its key in camel case, so a prop that is named with hyphens or underscores is offered
again.

* `Analysis.NamesAt`: the tag and the attribute in which a name is completed;
* `Analysis.exists_namesAt`, `Analysis.NamesAt.path`: where names of props are offered;
* `Analysis.NamesAt.mem_complete_iff`: the names that are offered;
* `Analysis.offersUnwritten_iff`: when no prop is offered that another attribute is bound to;
* `complete_property_behind_iff`: names are put inside of the tag, and behind its name unless the
  cursor is in front of the bracket.
-/

import PromptMarkup.Proofs.Editor.Completions
import PromptMarkup.Proofs.Markup.NamePlaces

namespace PromptMarkup

open Markup (Node)

/-! ### Nodes around a tag -/

namespace Markup.Node

/-- The document, or an element. -/
def IsOuter : Node → Prop
  | .root _ | .element _ => True
  | _ => False

/-- What a node can stand in: an attribute in an open tag, open tags and elements in elements and in
the document, and that in nothing. -/
def StandsIn (parent : Node) : Node → Prop
  | .root _ => False
  | .pair item => ∃ tag, parent = .openTag tag ∧ item ∈ tag.attributes
  | .openTag _ | .element _ => parent.IsOuter
  | _ => True

theorem standsIn_of_content {parent : Node} (outer : parent.IsOuter) (content : Content) :
    parent.StandsIn content.node := by
  cases content with
  | element => exact outer
  | template | comment | pragma | text => trivial

theorem standsIn_of_mem {parent child : Node} (member : child ∈ parent.children) :
    parent.StandsIn child := by
  cases parent with
  | root root =>
    obtain ⟨content, _, rfl⟩ := List.mem_map.mp member
    exact standsIn_of_content (show IsOuter (.root root) from trivial) content
  | element element =>
    obtain ⟨opening, body, closing, span⟩ := element
    rcases List.mem_cons.mp member with rfl | member
    · trivial
    · rcases List.mem_append.mp member with member | member
      · cases body with
        | selfClosing => cases member
        | literal text => rw [List.mem_singleton.mp member]; trivial
        | children contents =>
          obtain ⟨content, _, rfl⟩ := List.mem_map.mp member
          exact standsIn_of_content (show IsOuter (.element _) from trivial) content
      · obtain ⟨tag, _, rfl⟩ := List.mem_map.mp member
        trivial
  | openTag tag =>
    obtain ⟨pair, inside, rfl⟩ := List.mem_map.mp member
    exact ⟨tag, rfl, inside⟩
  | pair pair =>
    obtain ⟨value, _, rfl⟩ := List.mem_map.mp member
    cases value <;> trivial
  | quotedTemplate quoted =>
    obtain ⟨part, _, rfl⟩ := List.mem_map.mp member
    cases part <;> trivial
  | closeTag | template | comment | pragma | text | quoted | forIterator =>
    exact absurd member List.not_mem_nil

end Markup.Node

/-- Around an element there are elements only, up to the document. -/
theorem firstPair?_eq_none {nodes : List Node}
    (chain : nodes.IsChain fun child parent => child ∈ parent.children)
    (outer : ∀ node ∈ nodes.head?, node.IsOuter) : firstPair? nodes = none := by
  induction nodes with
  | nil => rfl
  | cons node rest ih =>
    obtain ⟨first, later⟩ := List.isChain_cons.mp chain
    have here := outer node rfl
    cases node with
    | root root =>
      exact ih later fun parent member => absurd (Node.standsIn_of_mem (first parent member)) id
    | element element =>
      exact ih later fun parent member => Node.standsIn_of_mem (first parent member)
    | openTag | closeTag | pair | template | comment | pragma | text | quoted | quotedTemplate
    | forIterator => exact absurd here id

/-- A name without hyphens and underscores is in camel case. -/
theorem Markup.camelCase_of_plain {name : String}
    (plain : ∀ char ∈ name.toList, char ≠ '-' ∧ char ≠ '_') : Markup.camelCase name = name := by
  suffices same : ∀ started, Markup.camelChars started false name.toList = name.toList by
    rw [Markup.camelCase, same, String.ofList_toList]
  generalize name.toList = chars at plain
  induction chars with
  | nil => exact fun _ => rfl
  | cons char rest ih =>
    intro started
    obtain ⟨⟨hyphen, underscore⟩, later⟩ := List.forall_mem_cons.mp plain
    simp [Markup.camelChars, hyphen, underscore, ih later]

/-! ### Where names are completed -/

namespace Analysis

variable {analysis : Analysis} {offset : Nat} {tag : Markup.OpenTag}
  {current : Option Markup.Attribute}

/-- The name of an attribute of a tag is completed at an offset: `current` is the attribute whose
key is being written. -/
inductive NamesAt (analysis : Analysis) (offset : Nat) (tag : Markup.OpenTag) :
    Option Markup.Attribute → Prop
  | free (here : (analysis.nodesAt offset).head? = some (.openTag tag))
      (outside : tag.nameSpan.touches offset = false) : NamesAt analysis offset tag none
  | key {pair : Markup.Attribute} (here : (analysis.nodesAt offset).head? = some (.pair pair))
      (touches : pair.keySpan.touches offset = true)
      (around : firstOpenTag? (analysis.nodesAt offset) = some tag) :
      NamesAt analysis offset tag (some pair)

theorem NamesAt.complete_eq (names : analysis.NamesAt offset tag current) :
    analysis.complete offset = analysis.completeProperty tag current offset := by
  cases names with
  | free here outside =>
    unfold complete
    simp [here, outside]
  | key here touches around =>
    unfold complete
    simp [here, touches, around]

/-- A completion of another kind is no name of a prop. -/
theorem kind_of_mem_completeCloseTag {nodes : List Node} {written : List Char} {range : Span}
    {completion : Completion}
    (member : completion ∈ completeCloseTag nodes offset written range) :
    completion.kind = .closeTag := by
  unfold completeCloseTag at member
  split at member
  · split at member
    · rw [List.mem_singleton.mp member]
    · cases member
  · cases member

theorem kind_of_mem_completeComponent {written : List Char} {range : Span} {completion : Completion}
    (member : completion ∈ analysis.completeComponent written range) :
    completion.kind = .component := by
  obtain ⟨name, _, rfl⟩ := List.mem_map.mp member
  rfl

theorem kind_of_mem_completeText {nodes : List Node} {start : Nat} {completion : Completion}
    (member : completion ∈ analysis.completeText nodes start offset) :
    completion.kind ≠ .property := by
  unfold completeText at member
  split at member
  · cases member
  · simp only at member
    split at member
    · split at member
      · rw [if_pos rfl] at member
        rw [kind_of_mem_completeCloseTag member]
        decide
      · cases member
    · split at member
      · rw [if_neg Bool.false_ne_true] at member
        rw [kind_of_mem_completeComponent member]
        decide
      · cases member

/-- **Names of props are offered where an attribute is written, and nowhere else.** -/
theorem exists_namesAt {completion : Completion} (member : completion ∈ analysis.complete offset)
    (kind : completion.kind = .property) :
    ∃ tag current, analysis.NamesAt offset tag current ∧
      completion ∈ analysis.completeProperty tag current offset := by
  unfold complete at member
  simp only at member
  split at member
  next tag here =>
    split at member
    · rw [kind_of_mem_completeComponent member] at kind
      cases kind
    next outside => exact ⟨tag, none, .free here (Bool.eq_false_iff.mpr outside), member⟩
  next pair here =>
    split at member
    next touches =>
      split at member
      next tag around => exact ⟨tag, some pair, .key here touches around, member⟩
      next => cases member
    next => cases member
  next quoted here =>
    split at member
    · split at member
      · obtain ⟨value, _, rfl⟩ := List.mem_map.mp member
        cases kind
      · cases member
    · cases member
  next tag here =>
    split at member
    · rw [kind_of_mem_completeCloseTag member] at kind
      cases kind
    · cases member
  next text here => exact absurd kind (kind_of_mem_completeText member)
  next => cases member

/-- The nodes at an offset stand in one another, the innermost first. -/
theorem isChain_nodesAt (analysis : Analysis) (offset : Nat) :
    (analysis.nodesAt offset).IsChain fun child parent => child ∈ parent.children := by
  rw [nodesAt, Node.pathAt]
  split
  · exact List.isChain_reverse.mpr (Node.isChain_descend _ offset)
  · exact .nil

/-- **The nodes around a name that is completed**: the open tag, and the attribute that is being
written if there is one. -/
theorem NamesAt.path (names : analysis.NamesAt offset tag current) :
    firstOpenTag? (analysis.nodesAt offset) = some tag ∧
      firstPair? (analysis.nodesAt offset) = current ∧
      .openTag tag ∈ analysis.nodesAt offset ∧ ∀ pair ∈ current, pair ∈ tag.attributes := by
  have chain := analysis.isChain_nodesAt offset
  cases names with
  | free here outside =>
    obtain ⟨outer, same⟩ := List.head?_eq_some_iff.mp here
    rw [same] at chain ⊢
    obtain ⟨first, later⟩ := List.isChain_cons.mp chain
    have none : firstPair? outer = none :=
      firstPair?_eq_none later fun parent member => Node.standsIn_of_mem (first parent member)
    exact ⟨rfl, none, List.mem_cons_self, fun _ absurd => by cases absurd⟩
  | @key pair here touches around =>
    obtain ⟨outer, same⟩ := List.head?_eq_some_iff.mp here
    rw [same] at chain around ⊢
    cases outer with
    | nil => cases around
    | cons parent outer =>
      obtain ⟨first, _⟩ := List.isChain_cons.mp chain
      obtain ⟨other, rfl, inside⟩ : ∃ other, parent = .openTag other ∧ pair ∈ other.attributes :=
        Node.standsIn_of_mem (first parent rfl)
      obtain rfl : other = tag := Option.some.inj around
      exact ⟨around, rfl, List.mem_cons_of_mem _ List.mem_cons_self,
        fun _ member => Option.some.inj member ▸ inside⟩

/-- **Keys stand apart**: attributes of a tag with one place for their keys are the same. -/
theorem attribute_eq_of_keySpan {source : String} (fits : (Node.openTag tag).Fits source)
    (keys : ∀ pair ∈ tag.attributes, (Node.pair pair).Holds pair.keySpan)
    {first second : Markup.Attribute} (left : first ∈ tag.attributes)
    (right : second ∈ tag.attributes) (same : first.keySpan = second.keySpan) :
    first = second := by
  by_contra different
  have apart := fits.apart_of_ne (List.mem_map_of_mem left) (List.mem_map_of_mem right)
    fun equal => different (Node.pair.inj equal)
  have holds := keys second right
  rw [← same] at holds
  exact (keys first left).not_apart holds apart

/-! ### What is offered -/

/-- What stands in front of the cursor of the name that is completed. -/
def begun (analysis : Analysis) (current : Option Markup.Attribute) (offset : Nat) : List Char :=
  current.elim [] fun pair => analysis.slice pair.keySpan.start offset

/-- The range that a name is put in. -/
def placeOf (current : Option Markup.Attribute) (offset : Nat) : Span :=
  current.elim ⟨offset, offset⟩ fun pair => pair.keySpan

/-- An attribute of a tag, apart from the one that is being written, spells a prop out in letters of
either case. -/
def SpellsOut (tag : Markup.OpenTag) (current : Option Markup.Attribute) (name : String) : Prop :=
  ∃ pair ∈ tag.attributes, current ≠ some pair ∧ Text.equalIgnoringCase pair.key name

/-- An attribute of a tag, apart from the one that is being written, is bound to a prop. -/
def Binds (tag : Markup.OpenTag) (current : Option Markup.Attribute) (name : String) : Prop :=
  ∃ pair ∈ tag.attributes, current ≠ some pair ∧ Markup.camelCase pair.key = name

theorem mem_writtenKeys_iff
    (apart : ∀ first ∈ tag.attributes, ∀ second ∈ tag.attributes,
      first.keySpan = second.keySpan → first = second)
    (inside : ∀ pair ∈ current, pair ∈ tag.attributes) (name : String) :
    Text.lowerAscii name ∈ writtenKeys tag current ↔ SpellsOut tag current name := by
  have other : ∀ pair ∈ tag.attributes,
      (current.all fun current => current.keySpan ≠ pair.keySpan) ↔ current ≠ some pair := by
    intro pair member
    cases current with
    | none => simp
    | some key =>
      have distinct : key.keySpan = pair.keySpan ↔ key = pair :=
        ⟨apart key (inside key rfl) pair member, fun same => same ▸ rfl⟩
      simp [distinct]
  simp only [writtenKeys, List.mem_map, List.mem_filter, SpellsOut, Text.equalIgnoringCase,
    decide_eq_true_eq]
  constructor
  · rintro ⟨pair, ⟨member, differs⟩, same⟩
    exact ⟨pair, member, (other pair member).mp differs, same⟩
  · rintro ⟨pair, member, differs, same⟩
    exact ⟨pair, ⟨member, (other pair member).mpr differs⟩, same⟩

theorem completeProperty_eq {component : Component}
    (found : analysis.registry.lookup tag.name = some component) :
    analysis.completeProperty tag current offset =
      (component.allProperties.filter fun property =>
          !(writtenKeys tag current).contains (Text.lowerAscii property.name) &&
            continuesText (analysis.begun current offset) property.name).map
        fun property =>
          ⟨property.name, .property, placeOf current offset, some property.doc⟩ := by
  unfold completeProperty
  rw [found]
  cases current <;> rfl

/-- **The names that are offered for a tag**: those of the props of its component that go on from
what is begun and that no other attribute spells out. -/
theorem mem_completeProperty_iff
    (apart : ∀ first ∈ tag.attributes, ∀ second ∈ tag.attributes,
      first.keySpan = second.keySpan → first = second)
    (inside : ∀ pair ∈ current, pair ∈ tag.attributes) (completion : Completion) :
    completion ∈ analysis.completeProperty tag current offset ↔
      ∃ component, analysis.registry.lookup tag.name = some component ∧
        ∃ property ∈ component.allProperties,
          continuesText (analysis.begun current offset) property.name ∧
          ¬ SpellsOut tag current property.name ∧
          completion = ⟨property.name, .property, placeOf current offset, some property.doc⟩ := by
  cases found : analysis.registry.lookup tag.name with
  | none => simp [completeProperty, found]
  | some component =>
    rw [completeProperty_eq found]
    simp only [List.mem_map, List.mem_filter, Bool.and_eq_true, Bool.not_eq_true',
      ← Bool.not_eq_true, List.contains_iff_mem, mem_writtenKeys_iff apart inside,
      Option.some.injEq, exists_eq_left']
    constructor
    · rintro ⟨property, ⟨member, unwritten, continued⟩, rfl⟩
      exact ⟨property, member, continued, unwritten, rfl⟩
    · rintro ⟨property, member, continued, unwritten, rfl⟩
      exact ⟨property, ⟨member, unwritten, continued⟩, rfl⟩

/-! ### Documents -/

section Documents

variable {options : CompileOptions} {source : String} {scope : Scope}

/-- The open tag of a name that is completed is one of the source, with the cursor in it. -/
theorem NamesAt.openTag (names : (ofSource options source scope).NamesAt offset tag current) :
    tag.Opens options.settings.literalTags source ∧ (Node.openTag tag).Fits source ∧
      tag.span.touches offset := by
  obtain ⟨_, _, member, _⟩ := names.path
  have placed := Markup.placed_parse options.settings.literalTags source
  obtain ⟨fits, touches⟩ := fits_of_mem_nodesAt placed member
  refine ⟨?_, fits, touches⟩
  rw [nodesAt, List.mem_reverse, Node.pathAt] at member
  split at member
  next => exact Markup.parse_originates _ source _ (Node.below_of_mem_descend member)
  next => cases member

/-- **The names that are offered in a document** where a name of an attribute is completed. -/
theorem NamesAt.mem_complete_iff
    (names : (ofSource options source scope).NamesAt offset tag current)
    (completion : Completion) :
    completion ∈ (ofSource options source scope).complete offset ↔
      ∃ component, (ofSource options source scope).registry.lookup tag.name = some component ∧
        ∃ property ∈ component.allProperties,
          continuesText ((ofSource options source scope).begun current offset) property.name ∧
          ¬ SpellsOut tag current property.name ∧
          completion = ⟨property.name, .property, placeOf current offset, some property.doc⟩ := by
  obtain ⟨opens, fits, _⟩ := names.openTag
  obtain ⟨_, _, _, inside⟩ := names.path
  rw [names.complete_eq]
  refine mem_completeProperty_iff (fun first left second right => ?_) inside completion
  exact attribute_eq_of_keySpan fits (fun pair member => (opens.keys.2 pair member).2) left right

end Documents

/-- The attribute whose key is under the cursor. -/
def IsUnderCursor (analysis : Analysis) (offset : Nat) (pair : Markup.Attribute) : Prop :=
  firstPair? (analysis.nodesAt offset) = some pair ∧ pair.keySpan.touches offset

/-- No name of a prop is offered for an open tag that another attribute of the tag is bound to than
the one whose key is under the cursor. -/
def OffersUnwritten (analysis : Analysis) (offset : Nat) : Prop :=
  ∀ completion ∈ analysis.complete offset, completion.kind = .property →
    ∃ tag, firstOpenTag? (analysis.nodesAt offset) = some tag ∧
      ∀ pair ∈ tag.attributes, ¬ analysis.IsUnderCursor offset pair →
        Markup.camelCase pair.key ≠ completion.label

/-- Wherever a name of an attribute is completed, each prop that goes on from what is begun is
spelled out by another attribute if another attribute is bound to it. -/
def SpellsOutBound (analysis : Analysis) (offset : Nat) : Prop :=
  ∀ tag current, analysis.NamesAt offset tag current →
    ∀ component ∈ analysis.registry.lookup tag.name, ∀ property ∈ component.allProperties,
      continuesText (analysis.begun current offset) property.name →
        Binds tag current property.name → SpellsOut tag current property.name

theorem NamesAt.isUnderCursor_iff (names : analysis.NamesAt offset tag current)
    (pair : Markup.Attribute) : analysis.IsUnderCursor offset pair ↔ current = some pair := by
  obtain ⟨_, first, _⟩ := names.path
  rw [IsUnderCursor, first]
  refine and_iff_left_of_imp fun same => ?_
  cases names with
  | free => cases same
  | key here touches around => exact Option.some.inj same ▸ touches

/-- **No prop is offered that is written already, exactly when** each attribute that is bound to a
prop has one beside it that spells the prop out, be it itself. -/
theorem offersUnwritten_iff (options : CompileOptions) (source : String) (scope : Scope)
    (offset : Nat) :
    (ofSource options source scope).OffersUnwritten offset ↔
      (ofSource options source scope).SpellsOutBound offset := by
  constructor
  · intro unwritten tag current names component found property member continued bound
    by_contra absent
    obtain ⟨pair, inside, other, same⟩ := bound
    have offered := (names.mem_complete_iff
      ⟨property.name, .property, placeOf current offset, some property.doc⟩).mpr
        ⟨component, found, property, member, continued, absent, rfl⟩
    obtain ⟨around, here, differs⟩ := unwritten _ offered rfl
    obtain rfl : tag = around := Option.some.inj (names.path.1.symm.trans here)
    exact differs pair inside (fun under => other ((names.isUnderCursor_iff pair).mp under)) same
  · intro spelled completion offered kind
    obtain ⟨tag, current, names, _⟩ := exists_namesAt offered kind
    obtain ⟨component, found, property, member, continued, absent, rfl⟩ :=
      (names.mem_complete_iff completion).mp offered
    refine ⟨tag, names.path.1, fun pair inside other same => absent ?_⟩
    refine spelled tag current names component found property member continued ⟨pair, inside, ?_,
      same⟩
    exact fun under => other ((names.isUnderCursor_iff pair).mpr under)

/-- **No prop is offered that is written already** where no key has a hyphen or an underscore: then
an attribute spells out the prop that it is bound to. -/
theorem offersUnwritten_of_plain (options : CompileOptions) (source : String) (scope : Scope)
    (offset : Nat)
    (plain : ∀ tag ∈ firstOpenTag? ((ofSource options source scope).nodesAt offset),
      ∀ pair ∈ tag.attributes, ∀ char ∈ pair.key.toList, char ≠ '-' ∧ char ≠ '_') :
    (ofSource options source scope).OffersUnwritten offset := by
  refine (offersUnwritten_iff options source scope offset).mpr ?_
  intro tag current names component _ property _ _ ⟨pair, inside, other, same⟩
  rw [Markup.camelCase_of_plain (plain tag names.path.1 pair inside)] at same
  exact ⟨pair, inside, other, by rw [same, Text.equalIgnoringCase, decide_eq_true_eq]⟩

/-- A list with one prop that is written with a hyphen and another one that is only begun. -/
def hyphenatedList : String := "<list list-style='dash' listSt></list>"

theorem not_offersUnwritten_hyphenatedList :
    ¬ (ofSource (.standard (.ofTable [])) hyphenatedList (.ofFrame [])).OffersUnwritten 30 := by
  have offered : ∃ completion ∈ (ofSource (.standard (.ofTable [])) hyphenatedList
      (.ofFrame [])).complete 30, completion.kind = .property ∧ completion.label = "listStyle" := by
    decide +kernel
  have written : ∀ tag ∈ firstOpenTag? ((ofSource (.standard (.ofTable [])) hyphenatedList
      (.ofFrame [])).nodesAt 30), ∃ pair ∈ tag.attributes,
        ¬ pair.keySpan.touches 30 ∧ Markup.camelCase pair.key = "listStyle" := by
    decide +kernel
  intro unwritten
  obtain ⟨completion, member, kind, label⟩ := offered
  obtain ⟨tag, here, differs⟩ := unwritten completion member kind
  obtain ⟨pair, inside, apart, same⟩ := written tag here
  exact differs pair inside (fun under => apart under.2) (same.trans label.symm)

/-! ### Where names are put -/

section Places

variable {options : CompileOptions} {source : String} {scope : Scope}

/-- **A name is put into the open tag, and behind the name of the tag** unless the cursor is in
front of the bracket. -/
theorem NamesAt.place (names : (ofSource options source scope).NamesAt offset tag current) :
    tag.span.containsSpan (placeOf current offset) ∧
      (tag.nameSpan.stop < (placeOf current offset).start ↔ offset ≠ tag.span.start) := by
  obtain ⟨opens, fits, touches⟩ := names.openTag
  obtain ⟨front, behind⟩ := opens.keys
  obtain ⟨_, name, _⟩ := opens.name_within
  obtain ⟨_, _, _, inside⟩ := names.path
  simp only [Span.touches, Bool.and_eq_true, decide_eq_true_eq] at touches
  simp only [Span.containsSpan, Bool.and_eq_true, decide_eq_true_eq]
  cases names with
  | free here outside =>
    have apart : ¬ (tag.nameSpan.start ≤ offset ∧ offset ≤ tag.nameSpan.stop) := by
      simpa [Span.touches] using outside
    simp only [placeOf, Option.elim_none]
    omega
  | @key pair here under around =>
    obtain ⟨later, start, some, stop⟩ := behind pair (inside pair rfl)
    obtain ⟨left, right⟩ := fits.contains _ (List.mem_map_of_mem (inside pair rfl))
    simp only [Span.touches, Bool.and_eq_true, decide_eq_true_eq] at under
    simp only [Node.span] at name start stop left right
    simp only [placeOf, Option.elim_some]
    omega

end Places

end Analysis

/-- **Names of props are offered inside of an open tag.** They are put behind the name of the tag,
except where the cursor is in front of the bracket of the tag. -/
theorem complete_property_behind_iff (options : CompileOptions) (source : String) (scope : Scope)
    (offset : Nat) :
    ∀ completion ∈ (Analysis.ofSource options source scope).complete offset,
      completion.kind = .property →
        ∃ tag, firstOpenTag? ((Analysis.ofSource options source scope).nodesAt offset) = some tag ∧
          tag.span.containsSpan completion.range ∧
          (tag.nameSpan.stop < completion.range.start ↔ offset ≠ tag.span.start) := by
  intro completion offered kind
  obtain ⟨tag, current, names, _⟩ := Analysis.exists_namesAt offered kind
  obtain ⟨_, _, _, _, _, _, rfl⟩ := (names.mem_complete_iff completion).mp offered
  exact ⟨tag, names.path.1, names.place⟩

theorem complete_property_behind_begunList :
    ∃ completion ∈ (Analysis.ofSource (.standard (.ofTable [])) begunList
        (.ofFrame [])).complete 12,
      completion.kind = .property ∧
        ∃ tag, firstOpenTag? ((Analysis.ofSource (.standard (.ofTable [])) begunList
            (.ofFrame [])).nodesAt 12) = some tag ∧
          tag.span.containsSpan completion.range ∧
          (tag.nameSpan.stop < completion.range.start ↔ 12 ≠ tag.span.start) := by
  have offered : ∃ completion ∈ (Analysis.ofSource (.standard (.ofTable [])) begunList
      (.ofFrame [])).complete 12, completion.kind = .property := by decide +kernel
  obtain ⟨completion, member, kind⟩ := offered
  exact ⟨completion, member, kind,
    complete_property_behind_iff _ begunList _ 12 completion member kind⟩

/-- **In front of a tag the names of its props are offered**, and put there. -/
theorem exists_property_before_tag :
    ∃ completion ∈ (Analysis.ofSource (.standard (.ofTable [])) "<p>x</p>"
        (.ofFrame [])).complete 0,
      completion.kind = .property ∧
        ∃ tag ∈ firstOpenTag? ((Analysis.ofSource (.standard (.ofTable [])) "<p>x</p>"
          (.ofFrame [])).nodesAt 0), ¬ tag.nameSpan.stop < completion.range.start := by
  decide +kernel

end PromptMarkup
