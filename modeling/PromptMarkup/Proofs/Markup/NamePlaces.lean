/-
**Places of names and keys.**

The name of a tag stands inside of the tag, and no other tag and no text around the tag holds its
place. A name goes on as long as it can, so no name comes directly behind another one: something
stands between the name of a tag and the key of its first attribute.

* `Node.IsPlaced.apart_of_below`, `Node.IsPlaced.apart_of_text`: nodes of a tree that are apart;
* `Node.IsPlaced.element_unique`: two elements with tags at one place are the same;
* `OpenTag.Opens.name_within`, `CloseTag.IsRead.name_within`: the name of a tag stands inside of it;
* `Element.closing_isRead`: the close tags of elements are read from the tokens of the source;
* `head?_place_of_endsName`: behind a name the lexer does not read a name;
* `readInside_keys`, `readInside_keys_behind`: the keys of attributes;
* `OpenTag.Opens.keys`: the name and the keys of an open tag of the tree.
-/

import PromptMarkup.Proofs.Markup.TagOrigins
import PromptMarkup.Proofs.Markup.TreePlaces

namespace PromptMarkup.Markup

variable {tags : LiteralTags} {source : String}

/-! ### Nodes that are apart -/

/-- A child is apart from what is below another one. -/
theorem Node.IsPlaced.apart_of_below {parent child node : Node} (placed : parent.IsPlaced source)
    (member : child ∈ parent.children) (below : parent.Below node) (strict : parent ≠ node)
    (other : ¬ child.Below node) :
    child.span.stop ≤ node.span.start ∨ node.span.stop ≤ child.span.start := by
  obtain same | ⟨next, inside, later⟩ := Relation.ReflTransGen.cases_head below
  · exact absurd same strict
  · have differs : child ≠ next := fun same => other (same ▸ later)
    obtain ⟨start, stop⟩ := (placed.child inside).within later
    rcases placed.fits.apart_of_ne member inside differs with before | behind
    · exact .inl (Nat.le_trans before start)
    · exact .inr (Nat.le_trans stop behind)

/-- **A text between tags is apart from every tag.** -/
theorem Node.IsPlaced.apart_of_text {top parent node : Node} {text : TextNode}
    (placed : top.IsPlaced source) (around : top.Below parent) (content : ¬ parent.IsOfTag)
    (member : .text text ∈ parent.children) (below : top.Below node) (tag : node.IsOfTag)
    (differs : node ≠ .text text) :
    text.span.stop ≤ node.span.start ∨ node.span.stop ≤ text.span.start := by
  have within : parent.IsPlaced source := fun other later => placed other (around.trans later)
  obtain ⟨start, stop⟩ := within.fits.contains _ member
  rcases placed.comparable around below with inside | inside | before | behind
  · refine within.apart_of_below member inside (fun same => content (same ▸ tag)) ?_
    intro later
    obtain same | ⟨_, absurd, _⟩ := Relation.ReflTransGen.cases_head later
    · exact differs same.symm
    · cases absurd
  · exact absurd (tag.below inside) content
  · exact .inl (Nat.le_trans stop before)
  · exact .inr (Nat.le_trans behind start)

/-- A range with at least one byte in a node. -/
def Node.Holds (node : Node) (span : Span) : Prop :=
  node.span.start ≤ span.start ∧ span.start < span.stop ∧ span.stop ≤ node.span.stop

theorem Node.Holds.not_apart {one other : Node} {span : Span} (first : one.Holds span)
    (second : other.Holds span) :
    ¬ (one.span.stop ≤ other.span.start ∨ other.span.stop ≤ one.span.start) := by
  obtain ⟨start, some, stop⟩ := first
  obtain ⟨begin, _, finish⟩ := second
  omega

/-- What an element has at a place in a tag of it, is not below another element with a tag there. -/
theorem Node.IsPlaced.eq_of_below {one other : Element} {first second : Node} {span : Span}
    (placed : (Node.element one).IsPlaced source)
    (below : (Node.element one).Below (.element other))
    (inside : first ∈ (Node.element one).children) (tag : first.IsOfTag) (here : first.Holds span)
    (within : second ∈ (Node.element other).children) (there : second.Holds span) :
    one = other := by
  by_contra differs
  have apart := placed.apart_of_below inside below (fun same => differs (Node.element.inj same))
    fun later => tag.below later
  obtain ⟨start, stop⟩ := (placed _ below).contains _ within
  have held : (Node.element other).Holds span :=
    ⟨Nat.le_trans start there.1, there.2.1, Nat.le_trans there.2.2 stop⟩
  exact here.not_apart held apart

/-- **Two elements of a tree with tags at one place are the same.** -/
theorem Node.IsPlaced.element_unique {top first second : Node} {one other : Element} {span : Span}
    (placed : top.IsPlaced source) (left : top.Below (.element one))
    (right : top.Below (.element other))
    (inside : first ∈ (Node.element one).children) (tag : first.IsOfTag) (here : first.Holds span)
    (within : second ∈ (Node.element other).children) (sign : second.IsOfTag)
    (there : second.Holds span) : one = other := by
  have ours : (Node.element one).IsPlaced source := fun node later => placed node (left.trans later)
  have theirs : (Node.element other).IsPlaced source :=
    fun node later => placed node (right.trans later)
  rcases placed.comparable left right with below | below | apart
  · exact ours.eq_of_below below inside tag here within there
  · exact (theirs.eq_of_below below within sign there inside here).symm
  · obtain ⟨start, stop⟩ := ours.fits.contains _ inside
    obtain ⟨begin, finish⟩ := theirs.fits.contains _ within
    obtain ⟨first, some, last⟩ := here
    obtain ⟨second, _, final⟩ := there
    omega

/-! ### Names -/

/-- Behind the bracket of a tag stands its name. -/
theorem exists_nameToken {bracket : Token} {rest : List Token}
    (suffix : bracket :: rest <:+ tokenize tags source) (tag : bracket.kind ∈ tagKinds) :
    ∃ name more, rest = name :: more ∧ takeKind .identifier rest = (some name, more) ∧
      bracket.span.start ≤ name.span.start ∧ name.span.start < name.span.stop ∧
      Run tags source name.span.stop more := by
  obtain ⟨read, name, behind, here, start, rfl⟩ := exists_tagAt_of_suffix suffix tag
  obtain ⟨front, whole⟩ := suffix
  have run := Run.tokenize tags source
  rw [← whole] at run
  obtain ⟨_, sound, tail⟩ := run.append.1.uncons
  obtain ⟨place, word, left⟩ := tail.uncons
  exact ⟨_, _, rfl, rfl, place ▸ sound.nonempty.le, word.nonempty, left⟩

/-- **The name of an open tag stands inside of it.** -/
theorem OpenTag.Opens.name_within {tag : OpenTag} (opens : tag.Opens tags source) :
    (Node.openTag tag).Holds tag.nameSpan := by
  obtain ⟨bracket, rest, suffix, kind, rfl⟩ := opens
  obtain ⟨name, more, rfl, taken, start, some, run⟩ :=
    exists_nameToken suffix (kind ▸ by decide)
  have inside := (readInside_placed name.text run.isValid run.beyond).1.start_le_stop
  unfold readOpenTag
  rw [taken]
  exact ⟨start, some, inside⟩

/-- **The name of a close tag stands inside of it.** -/
theorem CloseTag.IsRead.name_within {tag : CloseTag} (read : tag.IsRead tags source) :
    (Node.closeTag tag).Holds tag.nameSpan := by
  obtain ⟨bracket, rest, suffix, kind, rfl⟩ := read
  obtain ⟨name, more, rfl, taken, start, some, run⟩ :=
    exists_nameToken suffix (kind ▸ by decide)
  obtain ⟨trailing, ending⟩ := run.skipKind .whitespace
  obtain ⟨last, closing, _⟩ := ending.optional .closeBracket
  unfold readCloseTag
  rw [taken]
  refine ⟨start, some, ?_⟩
  simp only [Option.elim_some, Run.elim_stop]
  exact Nat.le_trans trailing (Nat.le_trans last.ge closing.start_le_stop)

/-- **The close tags of elements are read from the tokens of the source.** -/
theorem Element.closing_isRead {element : Element}
    (read : (Node.element element).IsRead tags source) :
    ∀ close ∈ element.closing, close.IsRead tags source := by
  obtain ⟨tag, body, closing, span⟩ := element
  intro close member
  cases body with
  | selfClosing | children =>
    obtain ⟨_, _, closes⟩ := read
    exact (closes close member).2.1
  | literal text =>
    obtain ⟨bracket, rest, suffix, kind, form⟩ := read
    obtain ⟨front, whole⟩ := suffix
    have run := Run.tokenize tags source
    rw [← whole] at run
    obtain ⟨_, sound, tail⟩ := run.append.1.uncons
    obtain ⟨_, _, _, _, _, left⟩ := readOpenTag_placed (by rw [kind]; rfl) sound tail
    unfold readOpening at form
    simp only at form
    split at form
    · unfold readLiteral at form
      simp only at form
      split at form
      next sign after found =>
        obtain ⟨same, mark⟩ := takeKind_eq_some found
        cases form
        obtain rfl := Option.some.inj member
        have behind := (left.optional .textContent).2.2.suffix
        rw [same] at behind
        exact ⟨sign, after, behind, mark, rfl⟩
      · cases form
        cases member
    · cases form

section Keys

open Text

variable {start : Nat} {tokens : List Token}

/-! ### Behind a name -/

/-- A step of the lexer reads a name only where one begins. -/
theorem tagStep_kinds (tags : LiteralTags) (literal : Option (List Char)) {first : Char}
    (other : isNameStart first = false) (rest : List Char) :
    ∀ item ∈ (tagStep tags literal first rest).lexemes, item.1 ≠ .identifier := by
  have single : ∀ (kind : TokenKind) (text : List Char), kind ≠ .identifier →
      ∀ item ∈ [(kind, text)], item.1 ≠ .identifier := by
    intro kind text differs item member
    rwa [List.mem_singleton.mp member]
  have template : ∀ inner, ∀ item ∈ (templateLexemes inner).1, item.1 ≠ .identifier := by
    intro inner item member
    obtain ⟨_, _, _, _, same, _⟩ := templateLexemes_ends inner
    rw [same] at member
    rcases List.mem_cons.mp member with rfl | member
    · decide
    · exact ne_of_mem_kinds (mem_templateKinds item member) (by decide)
  have between : ∀ step, BetweenTags tags (first :: rest) step →
      ∀ item ∈ step.lexemes, item.1 ≠ .identifier := by
    intro step between item member
    cases between with
    | comment inner => exact ne_of_mem_kinds (mem_commentKinds inner item member) (by decide)
    | template inner => exact template inner item member
    | opening | closing => exact single _ _ (by decide) item member
    | text plain => exact single _ _ (by rcases plain with rfl | rfl <;> decide) item member
  unfold tagStep
  split
  · exact single _ _ (by decide)
  split
  next name => exact absurd name (by simp [other])
  split
  · exact single _ _ (by decide)
  split
  · exact single _ _ (by decide)
  split
  · exact single _ _ (by decide)
  split
  · exact single _ _ (by decide)
  split
  · exact single _ _ (by decide)
  split
  · exact between _ (markupStep_betweenTags first rest)
  split
  · exact template _
  · exact single _ _ (by decide)

/-- **Behind a name the lexer does not read a name.** -/
theorem head?_place_of_endsName (tags : LiteralTags) (literal : Option (List Char))
    {chars : List Char} (ends : EndsName chars) (offset : Nat) :
    ∀ token ∈ (Token.place offset (lexemes tags (.tag literal) chars)).head?,
      token.kind ≠ .identifier := by
  cases chars with
  | nil =>
    rw [lexemes]
    exact fun _ absurd => by cases absurd
  | cons first rest =>
    have other : isNameStart first = false := by
      by_contra starts
      have continues := isNameContinue_of_isNameStart (by simpa using starts)
      rw [ends first rfl] at continues
      cases continues
    have reads : ∀ item ∈ (step tags (.tag literal) first rest).lexemes, item.1 ≠ .identifier :=
      tagStep_kinds tags literal other rest
    have shorter := step_length_lt tags (.tag literal) first rest
    have whole := congrArg List.length (step_cuts tags (.tag literal) first rest).whole
    rw [lexemes, place_append]
    generalize (step tags (.tag literal) first rest).lexemes = items at reads whole ⊢
    cases items with
    | nil =>
      rw [spelling_nil, List.nil_append] at whole
      omega
    | cons item items =>
      intro token member
      obtain rfl := Option.some.inj member
      exact reads item List.mem_cons_self

/-! ### Attributes -/

/-- **An attribute begins with its key.** -/
theorem readAttribute_key {key : Token} (sound : key.IsSound source)
    (run : Run tags source key.span.stop tokens) :
    (readAttribute key tokens).node.keySpan = key.span ∧
      (Node.pair (readAttribute key tokens).node).Holds key.span := by
  obtain ⟨blank, le, inner⟩ := run.skipKind_beyond .whitespace 0
  unfold readAttribute
  rcases inner.takeKind .equals with same | ⟨equals, after, same, _, place, mark, behind⟩
  · rw [same]
    exact ⟨rfl, Nat.le_refl _, sound.nonempty, Nat.le_refl _⟩
  · rw [same]
    obtain ⟨next, ge, left⟩ := behind.skipKind_beyond .whitespace 0
    have sign := mark.nonempty
    obtain ⟨written, _⟩ := readValue_stands key.text ⟨key.span.start, equals.span.stop⟩ left
    refine ⟨rfl, Nat.le_refl _, sound.nonempty, ?_⟩
    simp only [Node.span]
    generalize readValue key.text ⟨key.span.start, equals.span.stop⟩ _ = reading at written ⊢
    obtain ⟨value, problems, rest⟩ := reading
    cases value with
    | none =>
      show key.span.stop ≤ equals.span.stop
      omega
    | some value =>
      have stop := (written value rfl).le
      rw [span_valueNode] at stop
      show key.span.stop ≤ value.span.stop
      omega

/-- **The keys of a tag** stand where the tag is read or behind, each inside of its attribute. -/
theorem readInside_keys (name : String) (stop : Nat) (run : RunBeyond tags source start tokens) :
    ∀ pair ∈ (readInside name stop tokens).node.attributes,
      start ≤ pair.keySpan.start ∧ (Node.pair pair).Holds pair.keySpan := by
  fun_induction readInside name stop tokens generalizing start with
  | case1 => exact List.forall_mem_nil _
  | case2 stop token rest kind ih =>
    obtain ⟨_, le, left⟩ := run
    obtain ⟨rfl, sound, behind⟩ := left.uncons
    exact ih (behind.beyond.mono (Nat.le_trans le sound.nonempty.le))
  | case3 stop token rest kind first others =>
    rename_i ih
    obtain ⟨_, le, left⟩ := run
    obtain ⟨rfl, sound, behind⟩ := left.uncons
    obtain ⟨place, holds⟩ := readAttribute_key sound behind
    obtain ⟨begins, placed, beyond⟩ := readAttribute_placed sound behind
    have later := Nat.le_trans le (begins.ge.trans placed.fits.ordered)
    refine List.forall_mem_cons.mpr ⟨?_, ih (beyond.mono later)⟩
    show start ≤ (readAttribute token rest).node.keySpan.start ∧ _
    rw [place]
    exact ⟨le, holds⟩
  | case4 => exact List.forall_mem_nil _
  | case5 => exact List.forall_mem_nil _
  | case6 stop token rest kind template others =>
    rename_i ih
    obtain ⟨_, le, left⟩ := run
    obtain ⟨rfl, sound, behind⟩ := left.uncons
    have stands := readTemplate_stands sound behind
    exact ih (stands.run.beyond.mono (Nat.le_trans le stands.le))
  | case7 stop token rest kind | case8 stop token rest kind
  | case9 stop token rest kind | case10 stop token rest kind =>
    rename_i ih
    obtain ⟨_, le, left⟩ := run
    obtain ⟨rfl, sound, behind⟩ := left.uncons
    exact ih ((skipStray_beyond token.kind behind.beyond).mono (Nat.le_trans le sound.nonempty.le))
  | case11 => exact List.forall_mem_nil _

/-- Where no name comes first, the keys stand further behind. -/
theorem readInside_keys_behind (name : String) (stop : Nat) (run : Run tags source start tokens)
    (other : ∀ token ∈ tokens.head?, token.kind ≠ .identifier) :
    ∀ pair ∈ (readInside name stop tokens).node.attributes, start < pair.keySpan.start := by
  cases tokens with
  | nil =>
    rw [readInside]
    exact List.forall_mem_nil _
  | cons token rest =>
    obtain ⟨rfl, sound, behind⟩ := run.uncons
    have further : ∀ {later next : Nat} {others : List Token}, token.span.start < later →
        RunBeyond tags source later others →
        ∀ pair ∈ (readInside name next others).node.attributes,
          token.span.start < pair.keySpan.start := fun behind beyond pair member =>
      Nat.lt_of_lt_of_le behind (readInside_keys name _ beyond pair member).1
    have stray := @further _ token.span.stop _ sound.nonempty
      (skipStray_beyond token.kind behind.beyond)
    rw [readInside]
    split
    · exact further sound.nonempty behind.beyond
    next kind => exact absurd kind (other token rfl)
    · exact List.forall_mem_nil _
    · exact List.forall_mem_nil _
    next kind =>
      have stands := readTemplate_stands sound behind
      have broad := (readTemplate_reads run.suffix kind).start_lt_stop
      rw [show (readTemplate token rest).node.span.start = token.span.start from
        stands.start_eq] at broad
      exact further broad stands.run.beyond
    · exact stray
    · exact stray
    · exact stray
    · exact stray
    · exact List.forall_mem_nil _

/-! ### Tags -/

/-- **What stands in an open tag of the tree**: behind its bracket the name, and behind that, with
something in between, the keys of the attributes. -/
theorem OpenTag.Opens.keys {tag : OpenTag} (opens : tag.Opens tags source) :
    tag.nameSpan.start = tag.span.start + 1 ∧
      ∀ pair ∈ tag.attributes,
        tag.nameSpan.stop < pair.keySpan.start ∧ (Node.pair pair).Holds pair.keySpan := by
  obtain ⟨bracket, rest, suffix, kind, rfl⟩ := opens
  obtain ⟨read, name, behind, here, start, rfl⟩ := exists_tagAt_of_suffix suffix (kind ▸ by decide)
  obtain ⟨front, whole⟩ := suffix
  have run := Run.tokenize tags source
  rw [← whole] at run
  obtain ⟨_, sound, tail⟩ := run.append.1.uncons
  obtain ⟨place, _, left⟩ := tail.uncons
  have mark : bracket.kind.fixedText = some "<" := by rw [kind]; rfl
  have size : bracket.span.stop = bracket.span.start + 1 := sound.stop_eq mark
  refine ⟨place.trans size, fun pair member => ?_⟩
  have other := head?_place_of_endsName tags (keptBehind tags bracket.kind name) here.ends
    (nameStart read bracket.kind + byteLength name)
  exact ⟨readInside_keys_behind (String.ofList name) _ left other pair member,
    (readInside_keys (String.ofList name) _ left.beyond pair member).2⟩

end Keys

end PromptMarkup.Markup
