/-
**Tokens and tags under other names.**

Two sources that differ in the names of some tags have the same tokens but for these names and for
the offsets. The readers of the parser read the same from such tokens: the insides of tags are
alike, and the names of tags are renamed.

* `Renamed`, `renamed_tokenize`: two such lists of tokens, and those of a source with an element
  under another name;
* `Reading.Renames`: two readings of the same, with the same tokens behind them;
* `readTemplate_renamed`, `readAttribute_renamed`, `readInside_renamed`: what stands in a tag;
* `readOpenTag_renamed`, `readCloseTag_renamed`: the tags.
-/

import PromptMarkup.Proofs.Markup.Renaming
import PromptMarkup.Proofs.Markup.Respelling

namespace PromptMarkup.Markup

section Tokens

open Text

namespace Relabel

/-- The ranges of the names behind a bracket that are written in another way. -/
def places (relabel : Relabel) : TokenKind → List Span
  | .openBracket => relabel.opens
  | _ => relabel.closes

/-- All ranges of names that are written in another way. -/
def all (relabel : Relabel) : List Span := relabel.opens ++ relabel.closes

/-- The name behind a bracket and what is written instead of it. -/
def Spells (relabel : Relabel) : TokenKind → Span → String → String → Prop
  | .openBracket => relabel.Opens
  | _ => relabel.Closes

/-- A name elsewhere stays as it is. -/
theorem spells_of_notMem {relabel : Relabel} {span : Span} (apart : span ∉ relabel.all)
    (kind : TokenKind) (text : String) : relabel.Spells kind span text text := by
  unfold Spells
  split
  · exact (if_neg fun member => apart (List.mem_append_left _ member)).mpr rfl
  · exact (if_neg fun member => apart (List.mem_append_right _ member)).mpr rfl

/-- A name that is renamed is written as the new one. -/
theorem spells_of_mem {relabel : Relabel} {kind : TokenKind} {span : Span} {text word : String}
    (member : span ∈ relabel.places kind) (old : kind = .openBracket → text = relabel.old)
    (new : word = relabel.new) : relabel.Spells kind span text word := by
  cases kind with
  | openBracket => exact (if_pos member).mpr ⟨old rfl, new⟩
  | _ => exact (if_pos member).mpr new

theorem eq_of_spells {relabel : Relabel} {kind : TokenKind} {span : Span} {text word : String}
    (spells : relabel.Spells kind span text word) (apart : span ∉ relabel.all) : word = text := by
  unfold Spells at spells
  split at spells
  · exact (if_neg fun member => apart (List.mem_append_left _ member)).mp spells
  · exact (if_neg fun member => apart (List.mem_append_right _ member)).mp spells

end Relabel

/-- Another name in the tags of an element. -/
def Element.relabel (element : Element) (new : String) : Relabel :=
  ⟨[element.opening.nameSpan], (element.closing.map CloseTag.nameSpan).toList, element.name, new⟩

/-! ### Tokens -/

/-- Tokens that are the same up to their ranges, but for the names in tags that are renamed. -/
inductive Renamed (relabel : Relabel) : List Token → List Token → Prop
  | nil : Renamed relabel [] []
  | token {one other : Token} {rest others : List Token} : one.kind ∉ tagKinds →
      other.kind = one.kind → other.text = one.text → Renamed relabel rest others →
      Renamed relabel (one :: rest) (other :: others)
  | tag {bracket mark name word : Token} {rest others : List Token} : bracket.kind ∈ tagKinds →
      mark.kind = bracket.kind → mark.text = bracket.text → name.kind = .identifier →
      word.kind = .identifier → relabel.Spells bracket.kind name.span name.text word.text →
      Renamed relabel rest others →
      Renamed relabel (bracket :: name :: rest) (mark :: word :: others)

variable {relabel : Relabel} {tags : LiteralTags}

/-- No lexeme that is placed at an offset has one of some ranges. -/
def Outside (places : List Span) (offset : Nat) (lexemes : List Lexeme) : Prop :=
  ∀ span ∈ places, span.start < offset ∨ offset + byteLength (spelling lexemes) < span.stop

theorem Outside.cons {places : List Span} {offset : Nat} {item : Lexeme} {rest : List Lexeme}
    (outside : Outside places offset (item :: rest)) :
    (⟨offset, offset + byteLength item.2⟩ : Span) ∉ places ∧
      Outside places (offset + byteLength item.2) rest := by
  refine ⟨fun member => ?_, fun span member => ?_⟩
  · rcases outside _ member with before | behind
    · exact Nat.lt_irrefl _ before
    · rw [spelling_cons, byteLength_append] at behind
      simp only at behind
      omega
  · rcases outside span member with before | behind
    · exact .inl (Nat.lt_add_right _ before)
    · rw [spelling_cons, byteLength_append] at behind
      exact .inr (by omega)

/-- The same lexemes at other offsets, with none of the names that are renamed among them. -/
theorem renamed_place {lexemes : List Lexeme} (tagged : AreTagged lexemes) {offset : Nat}
    (outside : Outside relabel.all offset lexemes) (start : Nat) {rest others : List Token}
    (behind : Renamed relabel rest others) :
    Renamed relabel (Token.place offset lexemes ++ rest)
      (Token.place start lexemes ++ others) := by
  induction tagged generalizing offset start with
  | nil => exact behind
  | @other item more differs _ ih =>
    obtain ⟨kind, text⟩ := item
    exact .token differs rfl rfl (ih outside.cons.2 _)
  | @tag item name more mark _ _ ih =>
    obtain ⟨kind, text⟩ := item
    have next := outside.cons.2.cons
    exact .tag mark rfl rfl rfl rfl (Relabel.spells_of_notMem next.1 _ _) (ih next.2 _)

theorem byteLength_name_pos {name : List Char} (proper : isName name = true) :
    0 < byteLength name := by
  refine byteLength_pos ?_
  rintro rfl
  cases proper

/-- A tag with a name that is renamed, and what is behind it. -/
theorem renamed_tag {kind : TokenKind} (tag : kind ∈ tagKinds) {mark name new : List Char}
    {offset : Nat} (start : Nat) {rest others : List Lexeme}
    (member : (⟨offset + byteLength mark, offset + byteLength mark + byteLength name⟩ : Span) ∈
      relabel.places kind) (old : kind = .openBracket → String.ofList name = relabel.old)
    (word : String.ofList new = relabel.new)
    (behind : ∀ start, Renamed relabel
      (Token.place (offset + byteLength mark + byteLength name) rest) (Token.place start others)) :
    Renamed relabel (Token.place offset ((kind, mark) :: (.identifier, name) :: rest))
      (Token.place start ((kind, mark) :: (.identifier, new) :: others)) :=
  .tag tag rfl rfl rfl rfl (Relabel.spells_of_mem member old word) (behind _)

/-- Lexemes that none of the names is among, and what is behind them. -/
theorem renamed_append {lexemes : List Lexeme} (tagged : AreTagged lexemes) {offset : Nat}
    (outside : Outside relabel.all offset lexemes) (start : Nat) {rest others : List Lexeme}
    (behind : ∀ start, Renamed relabel
      (Token.place (offset + byteLength (spelling lexemes)) rest) (Token.place start others)) :
    Renamed relabel (Token.place offset (lexemes ++ rest))
      (Token.place start (lexemes ++ others)) := by
  rw [place_append, place_append]
  exact renamed_place tagged outside start (behind _)

/-- Lexemes that none of the names is among. -/
theorem renamed_rest {lexemes : List Lexeme} (tagged : AreTagged lexemes) {offset : Nat}
    (outside : Outside relabel.all offset lexemes) (start : Nat) :
    Renamed relabel (Token.place offset lexemes) (Token.place start lexemes) := by
  simpa using renamed_place tagged outside start (Renamed.nil : Renamed relabel [] [])

/-- **The tokens of a source with an element under another name.** -/
theorem renamed_tokenize {element : Element} {source other new : String}
    (respells : element.Respells tags source other new) :
    Renamed (element.relabel new) (tokenize tags source) (tokenize tags other) := by
  obtain ⟨front, middle, tail, last, first, second, place, closing⟩ := respells
  have tagged := lexemes_areTagged tags .markup source.toList
  rw [first] at tagged
  obtain ⟨ahead, name, rest, proper, shape, inside⟩ := tagged.split (by simp [tagKinds])
  obtain ⟨equal, rfl⟩ := List.cons.inj shape
  obtain rfl : element.name.toList = name := (Prod.mk.inj equal).2
  have positive := byteLength_name_pos proper
  have word : String.ofList new.toList = (element.relabel new).new := String.ofList_toList
  have old : String.ofList element.name.toList = (element.relabel new).old := String.ofList_toList
  have size : nameStart front .openBracket = byteLength (spelling front) + 1 := by
    rw [nameStart, byteLength_append]
    rfl
  have mark : byteLength (tagMark .openBracket) = 1 := rfl
  rw [size] at place closing
  have opens : (element.relabel new).places .openBracket = [element.opening.nameSpan] := rfl
  have closes : (element.relabel new).places .closingOpenBracket =
    (element.closing.map CloseTag.nameSpan).toList := rfl
  have all : (element.relabel new).all = element.opening.nameSpan ::
    (element.closing.map CloseTag.nameSpan).toList := rfl
  rw [place] at opens all
  rw [tokenize, tokenize, first, second]
  generalize element.closing = close at closing closes all
  cases closing with
  | none rest =>
    have sole : (element.relabel new).all = [⟨byteLength (spelling front) + 1,
        byteLength (spelling front) + 1 + byteLength element.name.toList⟩] := all
    refine renamed_append ahead ?_ 0 fun start =>
      renamed_tag (by decide) start ?_ (fun _ => old) word (renamed_rest inside ?_)
    · rw [sole]
      exact List.forall_mem_singleton.mpr (.inr (by simp only; omega))
    · rw [opens, mark, Nat.zero_add]
      exact List.mem_singleton_self _
    · rw [sole]
      exact List.forall_mem_singleton.mpr (.inl (by simp only; omega))
  | @some close rest spot =>
    obtain ⟨between, name, rest, proper, shape, behind⟩ := inside.split (by simp [tagKinds])
    obtain ⟨equal, rfl⟩ := List.cons.inj shape
    obtain rfl : close.name.toList = name := (Prod.mk.inj equal).2
    have more := byteLength_name_pos proper
    have slash : byteLength (tagMark .closingOpenBracket) = 2 := rfl
    simp only [Option.map_some, Option.toList_some, spot] at closes all
    have outside : ∀ {offset : Nat} {lexemes : List Lexeme},
        (byteLength (spelling front) + 1 < offset ∨ offset + byteLength (spelling lexemes) <
          byteLength (spelling front) + 1 + byteLength element.name.toList) →
        (byteLength (spelling front) + 1 + byteLength element.name.toList +
            byteLength (spelling middle) + 2 < offset ∨
          offset + byteLength (spelling lexemes) < byteLength (spelling front) + 1 +
            byteLength element.name.toList + byteLength (spelling middle) + 2 +
            byteLength close.name.toList) →
        Outside (element.relabel new).all offset lexemes := fun first second =>
      all ▸ List.forall_mem_cons.mpr ⟨first, List.forall_mem_singleton.mpr second⟩
    refine renamed_append ahead (outside (.inr ?_) (.inr ?_)) 0 fun start =>
      renamed_tag (by decide) start ?_ (fun _ => old) word fun start =>
        renamed_append between (outside (.inl ?_) (.inr ?_)) start fun start =>
          renamed_tag (by decide) start ?_ (fun never => by cases never) word
            (renamed_rest behind (outside (.inl ?_) (.inl ?_)))
    · omega
    · omega
    · rw [opens, mark, Nat.zero_add]
      exact List.mem_singleton_self _
    · omega
    · omega
    · rw [closes, mark, slash, Nat.zero_add]
      exact List.mem_singleton_self _
    · omega
    · omega

end Tokens

variable {relabel : Relabel} {ones others : List Token} {α : Type}

/-- Two readings with nodes that are related, and with the same tokens behind them. -/
structure Reading.Renames (relabel : Relabel) (related : α → α → Prop)
    (one other : Reading α) : Prop where
  node : related one.node other.node
  rest : Renamed relabel one.rest other.rest

/-! ### Single tokens -/

/-- The first token has the same kind. -/
theorem Renamed.exists_first {token : Token} (same : Renamed relabel (token :: ones) others) :
    ∃ other more, others = other :: more ∧ other.kind = token.kind := by
  cases same with
  | token _ kinds => exact ⟨_, _, rfl, kinds⟩
  | tag _ kinds => exact ⟨_, _, rfl, kinds⟩

/-- The first token and what is behind it, if it is no bracket of a tag. -/
theorem Renamed.exists_plain {token : Token} {kind : TokenKind}
    (same : Renamed relabel (token :: ones) others) (kinds : token.kind = kind)
    (plain : kind ∉ tagKinds) :
    ∃ other more, others = other :: more ∧ other.kind = kind ∧ other.text = token.text ∧
      Renamed relabel ones more := by
  subst kinds
  cases same with
  | token _ kinds text later => exact ⟨_, _, rfl, kinds, text, later⟩
  | tag tag => exact absurd tag plain

theorem Renamed.skipKind {kind : TokenKind} (plain : kind ∉ tagKinds)
    (same : Renamed relabel ones others) (start stop : Nat) :
    Renamed relabel (Markup.skipKind kind start ones).2
      (Markup.skipKind kind stop others).2 := by
  cases same with
  | nil => exact .nil
  | @token one other rest _ differs kinds text later =>
    unfold Markup.skipKind
    simp only [kinds]
    split
    · exact later
    · exact .token differs kinds text later
  | @tag bracket mark _ _ _ _ tag kinds text name word spell later =>
    unfold Markup.skipKind
    have apart : bracket.kind ≠ kind := fun same => plain (same ▸ tag)
    simp only [kinds, if_neg apart]
    exact .tag tag kinds text name word spell later

/-- Two tokens of one text, or none. -/
abbrev SameText : Option Token → Option Token → Prop :=
  Option.Rel fun one other => other.text = one.text

theorem Renamed.takeKind {kind : TokenKind} (plain : kind ∉ tagKinds)
    (same : Renamed relabel ones others) :
    SameText (Markup.takeKind kind ones).1 (Markup.takeKind kind others).1 ∧
      Renamed relabel (Markup.takeKind kind ones).2 (Markup.takeKind kind others).2 := by
  cases same with
  | nil => exact ⟨.none, .nil⟩
  | @token one other rest _ differs kinds text later =>
    unfold Markup.takeKind
    simp only [kinds]
    split
    · exact ⟨.some text, later⟩
    · exact ⟨.none, .token differs kinds text later⟩
  | @tag bracket mark _ _ _ _ tag kinds text name word spell later =>
    unfold Markup.takeKind
    have apart : bracket.kind ≠ kind := fun same => plain (same ▸ tag)
    simp only [kinds, if_neg apart]
    exact ⟨.none, .tag tag kinds text name word spell later⟩

theorem SameText.elim {one other : Option Token} (same : SameText one other) (default : String) :
    (other.elim default fun token => token.text) = one.elim default fun token => token.text := by
  cases same with
  | none => rfl
  | some text => exact text

/-! ### Templates and quoted values -/

theorem readTemplate_renamed (same : Renamed relabel ones others) (opening mark : Token) :
    Reading.Renames relabel Template.Resembles (readTemplate opening ones)
      (readTemplate mark others) := by
  have blanks := same.skipKind (show TokenKind.whitespace ∉ tagKinds by decide)
    opening.span.stop mark.span.stop
  obtain ⟨content, behind⟩ := blanks.takeKind (show TokenKind.textContent ∉ tagKinds by decide)
  refine ⟨content.elim "", ?_⟩
  have more := behind.skipKind (show TokenKind.whitespace ∉ tagKinds by decide)
  exact ((more _ _).takeKind (by decide)).2

/-- Parts that are the same up to ranges, closed both or neither. -/
structure QuotedParts.Resembles (one other : QuotedParts) : Prop where
  parts : List.Forall₂ QuotedPart.Resembles one.parts other.parts
  closed : other.closed = one.closed

theorem readParts_renamed {quote : TokenKind} (plain : quote ∉ tagKinds)
    (same : Renamed relabel ones others) (start stop : Nat) :
    Reading.Renames relabel QuotedParts.Resembles (readParts quote start ones)
      (readParts quote stop others) := by
  -- The induction is on the recursion of the reader in the first tokens.
  fun_induction readParts quote start ones generalizing others stop with
  | case1 =>
    cases same
    rw [readParts]
    exact ⟨⟨.nil, rfl⟩, .nil⟩
  | case2 start token rest kind =>
    obtain ⟨other, more, rfl, again, _, later⟩ := same.exists_plain kind plain
    rw [readParts, if_pos again]
    exact ⟨⟨.nil, rfl⟩, later⟩
  | case3 start token rest notQuote kind template =>
    rename_i ih
    obtain ⟨other, more, rfl, again, _, later⟩ := same.exists_plain kind (by decide)
    have read := readTemplate_renamed later token other
    have behind := ih read.rest (readTemplate other more).node.span.stop
    rw [readParts, again, if_neg (kind ▸ notQuote), if_pos rfl]
    exact ⟨⟨.cons (.template read.node) behind.node.parts, behind.node.closed⟩, behind.rest⟩
  | case4 start token rest notQuote notTemplate kind =>
    rename_i ih
    obtain ⟨other, more, rfl, again, text, later⟩ := same.exists_plain rfl (by
      rcases kind with kind | kind <;> rw [kind] <;> decide)
    have behind := ih later other.span.stop
    rw [readParts, again, if_neg notQuote, if_neg notTemplate, if_pos kind]
    exact ⟨⟨.cons (.text text) behind.node.parts, behind.node.closed⟩, behind.rest⟩
  | case5 start token rest notQuote notTemplate plain =>
    obtain ⟨other, more, rfl, again⟩ := same.exists_first
    rw [readParts, again, if_neg notQuote, if_neg notTemplate, if_neg plain]
    exact ⟨⟨.nil, rfl⟩, same⟩

/-- Iterators with the same texts. -/
def ForIterator.Resembles (one other : ForIterator) : Prop :=
  other.iterator = one.iterator ∧ other.collection = one.collection

/-- Two steps behind the same step. -/
theorem rel_bind {β γ : Type} {related : γ → γ → Prop} (value : Option β)
    {one other : β → Option γ} (each : ∀ item, Option.Rel related (one item) (other item)) :
    Option.Rel related (value >>= one) (value >>= other) := by
  cases value with
  | none => exact .none
  | some item => exact each item

/-- The iterator that a value names depends on its text only. -/
theorem forIterator?_resembles {one other : Quoted} (same : other.value = one.value) :
    Option.Rel ForIterator.Resembles (forIterator? one) (forIterator? other) := by
  unfold forIterator?
  rw [same]
  simp only
  refine rel_bind _ fun _ => rel_bind _ fun _ => rel_bind _ fun rest => rel_bind _ fun _ => ?_
  exact .some ⟨rfl, rfl⟩

section Lists

variable {β γ : Type} {related : β → β → Prop} {first second : List β}

theorem any_of_forall₂ {holds : β → Bool} (same : List.Forall₂ related first second)
    (each : ∀ one other, related one other → holds other = holds one) :
    second.any holds = first.any holds := by
  induction same with
  | nil => rfl
  | cons here _ ih => rw [List.any_cons, List.any_cons, ih, each _ _ here]

theorem map_of_forall₂ {read : β → γ} (same : List.Forall₂ related first second)
    (each : ∀ one other, related one other → read other = read one) :
    second.map read = first.map read := by
  induction same with
  | nil => rfl
  | cons here _ ih => rw [List.map_cons, List.map_cons, ih, each _ _ here]

end Lists

theorem readQuoted_renamed (key : String) {opening mark : Token}
    (kinds : mark.kind = opening.kind) (plain : opening.kind ∉ tagKinds)
    (same : Renamed relabel ones others) :
    Reading.Renames relabel AttributeValue.Resembles (readQuoted key opening ones)
      (readQuoted key mark others) := by
  have read := readParts_renamed plain same opening.span.stop mark.span.stop
  have parts := read.node.parts
  unfold readQuoted
  rw [kinds]
  simp only
  rw [any_of_forall₂ parts fun one other same => by cases same <;> rfl,
    map_of_forall₂ parts fun one other same => by
      cases same with
      | text same => exact same
      | template => rfl]
  split
  · exact ⟨.quotedTemplate parts, read.rest⟩
  · split
    · generalize first : forIterator? _ = named
      generalize second : forIterator? _ = again
      have found : Option.Rel ForIterator.Resembles named again := by
        rw [← first, ← second]
        exact forIterator?_resembles rfl
      cases found with
      | none => exact ⟨.quoted rfl, read.rest⟩
      | some same => exact ⟨.forIterator same.1 same.2, read.rest⟩
    · exact ⟨.quoted rfl, read.rest⟩

/-! ### Attributes -/

theorem readValue_renamed (key : String) (same : Renamed relabel ones others)
    (named again : Span) :
    Reading.Renames relabel (Option.Rel AttributeValue.Resembles) (readValue key named ones)
      (readValue key again others) := by
  cases same with
  | nil => exact ⟨.none, .nil⟩
  | @token one other rest more differs kinds text later =>
    unfold readValue
    simp only [kinds]
    split
    next kind =>
      have read := readQuoted_renamed key kinds differs later
      exact ⟨.some read.node, read.rest⟩
    next kind =>
      have read := readQuoted_renamed key kinds differs later
      exact ⟨.some read.node, read.rest⟩
    next kind =>
      have read := readTemplate_renamed later one other
      exact ⟨.some (.template read.node), read.rest⟩
    · exact ⟨.some (.quoted text), later⟩
    · exact ⟨.some (.quoted text), later⟩
    · exact ⟨.none, .token differs kinds text later⟩
  | @tag bracket mark _ _ _ _ tag kinds text name word spell later =>
    have behind := Renamed.tag tag kinds text name word spell later
    unfold readValue
    simp only [kinds]
    split
    case h_6 => exact ⟨.none, behind⟩
    all_goals
      next kind => exact absurd (kind ▸ tag) (by decide)

theorem readAttribute_renamed {key word : Token} (text : word.text = key.text)
    (same : Renamed relabel ones others) :
    Reading.Renames relabel Attribute.Resembles (readAttribute key ones)
      (readAttribute word others) := by
  have blanks := same.skipKind (show TokenKind.whitespace ∉ tagKinds by decide) 0 0
  obtain ⟨equals, behind⟩ := blanks.takeKind (show TokenKind.equals ∉ tagKinds by decide)
  unfold readAttribute
  generalize takeKind .equals (skipKind .whitespace 0 ones).2 = taken at equals behind ⊢
  generalize takeKind .equals (skipKind .whitespace 0 others).2 = found at equals behind ⊢
  obtain ⟨sign, after⟩ := taken
  obtain ⟨mark, later⟩ := found
  cases equals with
  | none => exact ⟨⟨text, .none⟩, same⟩
  | @some sign mark _ =>
    have more := behind.skipKind (show TokenKind.whitespace ∉ tagKinds by decide) 0 0
    have value := readValue_renamed key.text more ⟨key.span.start, sign.span.stop⟩
      ⟨word.span.start, mark.span.stop⟩
    simp only [text]
    exact ⟨⟨rfl, value.node⟩, value.rest⟩

/-! ### Tags -/

/-- The tokens behind the next one of a kind. -/
theorem Renamed.behind {kind : TokenKind} (plain : kind ∉ tagKinds) (noName : kind ≠ .identifier)
    (same : Renamed relabel ones others) :
    Renamed relabel ((ones.dropWhile fun token => token.kind ≠ kind).drop 1)
      ((others.dropWhile fun token => token.kind ≠ kind).drop 1) := by
  induction same with
  | nil => exact .nil
  | @token one other _ _ _ kinds _ later ih =>
    rw [List.dropWhile_cons, List.dropWhile_cons, kinds]
    split
    · exact ih
    · exact later
  | @tag bracket mark _ _ _ _ tag kinds _ name word _ _ ih =>
    have apart : bracket.kind ≠ kind := fun same => plain (same ▸ tag)
    simpa [List.dropWhile_cons, kinds, name, word, apart, noName.symm] using ih

theorem skipStray_renamed {kind : TokenKind} (plain : kind ∉ tagKinds)
    (same : Renamed relabel ones others) :
    Renamed relabel (skipStray kind ones) (skipStray kind others) := by
  unfold skipStray
  split
  next quote => exact same.behind plain (by rintro rfl; simp at quote)
  · exact same

/-- The insides of tags that are the same up to ranges, ended in the same way. -/
structure TagInside.Resembles (one other : TagInside) : Prop where
  attributes : List.Forall₂ Attribute.Resembles one.attributes other.attributes
  terminator : other.terminator = one.terminator

theorem readInside_renamed (name word : String) (start stop : Nat)
    (same : Renamed relabel ones others) :
    Reading.Renames relabel TagInside.Resembles (readInside name start ones)
      (readInside word stop others) := by
  fun_induction readInside name start ones generalizing others stop with
  | case1 start =>
    cases same
    rw [readInside]
    exact ⟨⟨.nil, rfl⟩, .nil⟩
  | case2 start token rest kind ih =>
    obtain ⟨other, more, rfl, again, _, later⟩ := same.exists_plain kind (by decide)
    rw [readInside, again]
    exact ih _ later
  | case3 start token rest kind first =>
    rename_i ih
    obtain ⟨other, more, rfl, again, text, later⟩ := same.exists_plain kind (by decide)
    have read := readAttribute_renamed text later
    have behind := ih (readAttribute other more).node.span.stop read.rest
    rw [readInside, again]
    exact ⟨⟨.cons read.node behind.node.attributes, behind.node.terminator⟩, behind.rest⟩
  | case4 start token rest kind | case5 start token rest kind =>
    obtain ⟨other, more, rfl, again, _, later⟩ := same.exists_plain kind (by decide)
    rw [readInside, again]
    exact ⟨⟨.nil, rfl⟩, later⟩
  | case6 start token rest kind template =>
    rename_i ih
    obtain ⟨other, more, rfl, again, _, later⟩ := same.exists_plain kind (by decide)
    have read := readTemplate_renamed later token other
    have behind := ih (readTemplate other more).node.span.stop read.rest
    rw [readInside, again]
    exact ⟨behind.node, behind.rest⟩
  | case7 start token rest kind | case8 start token rest kind
  | case9 start token rest kind | case10 start token rest kind =>
    rename_i ih
    obtain ⟨other, more, rfl, again, _, later⟩ := same.exists_plain kind (by decide)
    have stray : ∀ same ∉ tagKinds, token.kind = same →
        Renamed relabel (skipStray token.kind rest) (skipStray same more) := by
      rintro _ plain rfl
      exact skipStray_renamed plain later
    have behind := ih other.span.stop (stray _ (by decide) kind)
    rw [readInside, again]
    exact ⟨behind.node, behind.rest⟩
  | case11 start token rest =>
    obtain ⟨other, more, rfl, again⟩ := same.exists_first
    have ends : readInside word stop (other :: more) =
        ⟨⟨[], stop, .missing⟩, [], other :: more⟩ := by
      rw [readInside, again]
      split <;> first | contradiction | rfl
    rw [ends]
    exact ⟨⟨.nil, rfl⟩, same⟩

theorem takeKind_cons_ne {token : Token} {rest : List Token} {kind : TokenKind}
    (apart : token.kind ≠ kind) : takeKind kind (token :: rest) = (none, token :: rest) :=
  if_neg apart

/-- Open tags that end in the same way, the second one with the other name if the first one is
renamed. -/
structure TagRenames (relabel : Relabel) (one other : OpenTag × Terminator) : Prop where
  tag : one.1.Renames relabel other.1
  terminator : other.2 = one.2

/-- **An open tag under another name.** -/
theorem readOpenTag_renamed {bracket mark name word : Token} (kind : name.kind = .identifier)
    (again : word.kind = .identifier)
    (spell : relabel.Opens name.span name.text word.text)
    (same : Renamed relabel ones others) :
    Reading.Renames relabel (TagRenames relabel) (readOpenTag bracket (name :: ones))
      (readOpenTag mark (word :: others)) := by
  have inside := readInside_renamed name.text word.text name.span.stop word.span.stop same
  unfold readOpenTag
  rw [takeKind_of_eq kind, takeKind_of_eq again]
  exact ⟨⟨⟨spell, inside.node.attributes⟩, inside.node.terminator⟩, inside.rest⟩

/-- Close tags, the second one with the other name if the first one is renamed. -/
def CloseTag.Renames (relabel : Relabel) (one other : CloseTag) : Prop :=
  relabel.Closes one.nameSpan one.name other.name

/-- **A close tag under another name.** -/
theorem readCloseTag_renamed {bracket mark name word : Token} (kind : name.kind = .identifier)
    (again : word.kind = .identifier)
    (spell : relabel.Closes name.span name.text word.text)
    (same : Renamed relabel ones others) :
    Reading.Renames relabel (CloseTag.Renames relabel) (readCloseTag bracket (name :: ones))
      (readCloseTag mark (word :: others)) := by
  have blanks := same.skipKind (show TokenKind.whitespace ∉ tagKinds by decide) name.span.stop
    word.span.stop
  unfold readCloseTag
  rw [takeKind_of_eq kind, takeKind_of_eq again]
  exact ⟨spell, (blanks.takeKind (by decide)).2⟩

end PromptMarkup.Markup
