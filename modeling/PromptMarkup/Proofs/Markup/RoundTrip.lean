/-
**Outlines are read back.**

What is written for outlines is parsed without problems, and the contents of the tree have those
outlines.

* `readTemplate_words`, `readComment_words`, `readInside_words`: the readers on the lexemes of
  templates, comments and tags;
* `isPiece_text` and others: the pieces that outlines become;
* `assemble_words`: outlines in a row are added to the contents of whatever is open;
* `parse_print`: parsing inverts writing.
-/

import Mathlib
import PromptMarkup.Proofs.Markup.OutlineLexemes
import PromptMarkup.Proofs.Markup.TokenTiling

namespace PromptMarkup.Markup

open Text

variable {tags : LiteralTags}

/-! ### Tokens -/

theorem joinTexts_place (offset : Nat) (lexemes : List Lexeme) :
    joinTexts (Token.place offset lexemes) = String.ofList (spelling lexemes) := by
  induction lexemes generalizing offset with
  | nil => rfl
  | cons lexeme rest ih =>
    obtain ⟨kind, chars⟩ := lexeme
    have later := ih (offset + byteLength chars)
    unfold joinTexts at later ⊢
    rw [Token.place, List.map_cons, String.join_cons, later, spelling_cons, String.ofList_append]

/-- The kinds of tokens are those of their lexemes. -/
theorem kind_of_mem_place {offset : Nat} {lexemes : List Lexeme} {token : Token}
    (member : token ∈ Token.place offset lexemes) : ∃ lexeme ∈ lexemes, token.kind = lexeme.1 := by
  induction lexemes generalizing offset with
  | nil => cases member
  | cons lexeme rest ih =>
    rcases List.mem_cons.mp member with rfl | later
    · exact ⟨lexeme, List.mem_cons_self, rfl⟩
    · obtain ⟨other, inside, same⟩ := ih later
      exact ⟨other, List.mem_cons_of_mem _ inside, same⟩

/-! ### Templates and comments -/

/-- Nothing is wrong with what is read, and the tokens of some lexemes are left. -/
structure Reading.Leaves {α : Type} (reading : Reading α) (after : List Lexeme) : Prop where
  problems : reading.problems = []
  rest : ∃ next, reading.rest = Token.place next after

theorem readTemplate_words (opening : Token) (offset : Nat) {text : String}
    (expression : IsExpression text) (after : List Lexeme) :
    let reading := readTemplate opening (Token.place offset
      ((.textContent, text.toList) :: (.templateClose, templateClosing) :: after))
    reading.Leaves after ∧ reading.node.expression = text := by
  have nonempty : text ≠ "" := fun empty => by
    subst empty
    exact expression.trimmed.1.nonempty rfl
  refine ⟨⟨?_, _, rfl⟩, ?_⟩
  · simp [readTemplate, Token.place, skipKind, takeKind, nonempty]
  · simp [readTemplate, Token.place, skipKind, takeKind]

theorem readComment_words (opening : Token) (offset : Nat) (content : String)
    (after : List Lexeme) :
    let reading := readComment opening (Token.place offset
      (lexeme .textContent content.toList ++ (.commentClose, commentClosing) :: after))
    reading.Leaves after ∧ ∃ node, reading.node = .comment node ∧ node.content = content := by
  unfold lexeme
  split
  next empty =>
    obtain rfl : content = "" := by simpa using empty
    exact ⟨⟨rfl, _, rfl⟩, _, rfl, rfl⟩
  next =>
    refine ⟨⟨rfl, _, rfl⟩, _, rfl, ?_⟩
    simp [Token.place, joinTexts]

/-! ### Attributes -/

theorem readQuoted_words {key : String} (other : equalIgnoringCase key "for" = false)
    (opening : Token) (quote : opening.kind = .doubleQuote) (offset : Nat) (text : String)
    (after : List Lexeme) :
    let reading := readQuoted key opening (Token.place offset
      (lexeme .textContent text.toList ++ (.doubleQuote, ['"']) :: after))
    reading.Leaves after ∧ ∃ node, reading.node = .quoted node ∧ node.value = text := by
  unfold lexeme
  split
  next empty =>
    obtain rfl : text = "" := by simpa using empty
    refine ⟨⟨?_, offset + byteLength ['"'], ?_⟩, ?_⟩ <;>
      simp [readQuoted, readParts, Token.place, quote, other]
  next =>
    refine ⟨⟨?_, offset + byteLength text.toList + byteLength ['"'], ?_⟩, ?_⟩ <;>
      simp [readQuoted, readParts, Token.place, quote, other]

/-- The outline of an attribute is that of its value. -/
theorem outline?_of_value {key : String} {keySpan span : Span} {value other : AttributeValue}
    {outline : OutlineValue} (same : value = other) (has : other.outline? = some outline) :
    Attribute.outline? ⟨key, keySpan, some value, span⟩ = some ⟨key, outline⟩ := by
  subst same
  simp [Attribute.outline?, has]

/-- No equals sign comes next, nor behind a blank. -/
def EndsPair (after : List Lexeme) : Prop :=
  ∀ offset, (takeKind .equals (skipKind .whitespace 0 (Token.place offset after)).2).1 = none

theorem readAttribute_words {pair : OutlinePair} (proper : pair.IsGrammatical) (key : Token)
    (name : key.text = pair.key) (offset : Nat) {after : List Lexeme} (ends : EndsPair after) :
    let reading := readAttribute key (Token.place offset (pair.value.words ++ after))
    reading.Leaves after ∧ reading.node.outline? = some pair := by
  obtain ⟨_, value⟩ := pair
  obtain rfl := name
  obtain ⟨_, written⟩ := proper
  cases value with
  | bare =>
    have nothing := ends offset
    unfold readAttribute
    simp only [OutlineValue.words, List.nil_append]
    split
    · exact ⟨⟨rfl, _, rfl⟩, rfl⟩
    next found =>
      rw [found] at nothing
      cases nothing
  | quoted text =>
    obtain ⟨leaves, node, same, value⟩ := readQuoted_words written.2.2
      ⟨.doubleQuote, String.ofList ['"'], ⟨offset + 1, offset + 2⟩⟩ rfl (offset + 2) text after
    have whole : OutlineValue.words (.quoted text) ++ after = (.equals, ['=']) ::
        (.doubleQuote, ['"'])
          :: (lexeme .textContent text.toList ++ (.doubleQuote, ['"']) :: after) := by
      simp [OutlineValue.words, quotedWords]
    rw [whole]
    exact ⟨⟨leaves.problems, leaves.rest⟩,
      outline?_of_value same (congrArg (fun text => some (OutlineValue.quoted text)) value)⟩
  | template expression =>
    obtain ⟨leaves, same⟩ := readTemplate_words
      ⟨.templateOpen, String.ofList templateOpening, ⟨offset + 1, offset + 3⟩⟩ (offset + 3)
      written after
    exact ⟨⟨leaves.problems, leaves.rest⟩,
      outline?_of_value rfl (congrArg (fun text => some (OutlineValue.template text)) same)⟩

/-! ### Tags -/

/-- The bracket that ends an open tag, and how it ends the tag. -/
inductive Ends : TokenKind → Terminator → Prop
  | close : Ends .closeBracket .close
  | selfClose : Ends .selfCloseBracket .selfClose

theorem endsPair_words (pairs : List OutlinePair) {kind : TokenKind} {terminator : Terminator}
    (ends : Ends kind terminator) (mark : List Char) (after : List Lexeme) :
    EndsPair (pairs.flatMap OutlinePair.words ++ (kind, mark) :: after) := by
  intro offset
  cases pairs with
  | nil => cases ends <;> rfl
  | cons pair pairs => rfl

theorem readInside_words {pairs : List OutlinePair} (proper : ∀ pair ∈ pairs, pair.IsGrammatical)
    {kind : TokenKind} {terminator : Terminator} (ends : Ends kind terminator) (mark : List Char)
    (after : List Lexeme) (name : String) (stop offset : Nat) :
    let reading := readInside name stop (Token.place offset
      (pairs.flatMap OutlinePair.words ++ (kind, mark) :: after))
    reading.Leaves after ∧ reading.node.terminator = terminator ∧
      reading.node.attributes.mapM Attribute.outline? = some pairs := by
  induction pairs generalizing stop offset with
  | nil =>
    simp only [List.flatMap_nil, List.nil_append, Token.place]
    cases ends <;>
    · rw [readInside]
      exact ⟨⟨rfl, _, rfl⟩, rfl, rfl⟩
  | cons pair pairs ih =>
    obtain ⟨here, later⟩ := List.forall_mem_cons.mp proper
    have whole : (pair :: pairs).flatMap OutlinePair.words ++ (kind, mark) :: after =
        (.whitespace, [' ']) :: (.identifier, pair.key.toList)
          :: (pair.value.words ++ (pairs.flatMap OutlinePair.words ++ (kind, mark) :: after)) := by
      simp [OutlinePair.words]
    rw [whole, Token.place, Token.place, readInside, readInside]
    simp only
    generalize keyed : Token.mk .identifier (String.ofList pair.key.toList) _ = key
    have named : key.text = pair.key := by rw [← keyed, String.ofList_toList]
    obtain ⟨⟨problems, next, rest⟩, outline⟩ := readAttribute_words here key named
      (offset + byteLength [' '] + byteLength pair.key.toList)
      (endsPair_words pairs ends mark after)
    rw [problems, rest]
    obtain ⟨leaves, same, outlines⟩ := ih later _ next
    exact ⟨⟨leaves.problems, leaves.rest⟩, same, by rw [List.mapM_cons, outline, outlines]; rfl⟩

theorem readOpenTag_words {tag : OutlineTag} (proper : tag.IsGrammatical tags) {kind : TokenKind}
    {terminator : Terminator} (ends : Ends kind terminator) (mark : List Char)
    (bracket : Token) (offset : Nat) (after : List Lexeme) :
    let reading := readOpenTag bracket (Token.place offset ((.identifier, tag.name.toList)
      :: (tag.pairs.flatMap OutlinePair.words ++ (kind, mark) :: after)))
    reading.Leaves after ∧ reading.node.2 = terminator ∧ reading.node.1.name = tag.name ∧
      reading.node.1.outline? = some tag := by
  obtain ⟨name, pairs⟩ := tag
  obtain ⟨leaves, same, outlines⟩ := readInside_words proper.pairs ends mark after
    (String.ofList name.toList) (offset + byteLength name.toList) (offset + byteLength name.toList)
  refine ⟨⟨leaves.problems, leaves.rest⟩, same, String.ofList_toList, ?_⟩
  have whole := congrArg (Option.map (OutlineTag.mk (String.ofList name.toList))) outlines
  refine whole.trans ?_
  rw [String.ofList_toList]
  rfl

theorem readCloseTag_words (bracket : Token) (offset : Nat) (name : String)
    (after : List Lexeme) :
    let reading := readCloseTag bracket (Token.place offset
      ((.identifier, name.toList) :: (.closeBracket, ['>']) :: after))
    reading.Leaves after ∧ reading.node.name = name :=
  ⟨⟨rfl, _, rfl⟩, String.ofList_toList⟩

/-! ### Pieces -/

/-- A piece without problems is read, and the tokens of some lexemes are left. -/
def IsPiece (tags : LiteralTags) (holds : PieceForm → Prop) (lexemes after : List Lexeme) : Prop :=
  ∀ offset, ∃ form source span next,
    pieces tags (Token.place offset (lexemes ++ after)) =
      ⟨form, [], source, span⟩ :: pieces tags (Token.place next after) ∧ holds form

theorem isPiece_of_read {holds : PieceForm → Prop} {kind : TokenKind} {chars : List Char}
    {lexemes after all : List Lexeme} (whole : lexemes ++ after = (kind, chars) :: all)
    (read : ∀ (token : Token) (offset : Nat), token.kind = kind →
      token.text = String.ofList chars →
        (readPiece tags token (Token.place offset all)).Leaves after ∧
          holds (readPiece tags token (Token.place offset all)).node) :
    IsPiece tags holds lexemes after := by
  intro offset
  rw [whole, Token.place, pieces]
  generalize same : Token.mk kind (String.ofList chars) _ = token
  obtain ⟨⟨problems, next, rest⟩, form⟩ := read token (offset + byteLength chars)
    (by rw [← same]) (by rw [← same])
  simp only [problems, rest]
  exact ⟨_, _, _, next, rfl, form⟩

/-- The outline of some content is this one. -/
def Content.Shows (content : Content) (outline : Outline) : Prop :=
  ∀ contents, outlines? (content :: contents) = return outline :: (← outlines? contents)

/-- A piece without elements in it that has an outline. -/
def PieceForm.Shows (outline : Outline) (form : PieceForm) : Prop :=
  ∃ content, form = .leaf content ∧ content.Shows outline

theorem isPiece_template {text : String} (expression : IsExpression text) (after : List Lexeme) :
    IsPiece tags (PieceForm.Shows (.template text)) (templateWords text) after := by
  have whole : templateWords text ++ after = (.templateOpen, templateOpening)
      :: (.textContent, text.toList) :: (.templateClose, templateClosing) :: after := rfl
  refine isPiece_of_read whole fun token offset kind _ => ?_
  obtain ⟨leaves, same⟩ := readTemplate_words token offset expression after
  unfold readPiece
  rw [kind]
  refine ⟨⟨leaves.problems, leaves.rest⟩, _, rfl, fun contents => ?_⟩
  rw [outlines?, same]

theorem isPiece_comment (content : String) (after : List Lexeme) :
    IsPiece tags (PieceForm.Shows (.comment content)) (commentWords content) after := by
  have whole : commentWords content ++ after = (.commentOpen, commentOpening)
      :: (lexeme .textContent content.toList ++ (.commentClose, commentClosing) :: after) := by
    simp [commentWords]
  refine isPiece_of_read whole fun token offset kind _ => ?_
  obtain ⟨leaves, node, found, same⟩ := readComment_words token offset content after
  unfold readPiece
  rw [kind]
  refine ⟨⟨leaves.problems, leaves.rest⟩, .comment node, congrArg PieceForm.leaf found,
    fun contents => ?_⟩
  rw [outlines?, same]

theorem isPiece_opening {tag : OutlineTag} (proper : tag.IsGrammatical tags) {kind : TokenKind}
    {terminator : Terminator} (ends : Ends kind terminator) (mark : List Char)
    (after : List Lexeme) :
    IsPiece tags (fun form => ∃ node, form = .opening node terminator ∧ node.name = tag.name ∧
      node.outline? = some tag) (tag.words ++ [(kind, mark)]) after := by
  have whole : tag.words ++ [(kind, mark)] ++ after = (.openBracket, ['<'])
      :: (.identifier, tag.name.toList)
        :: (tag.pairs.flatMap OutlinePair.words ++ (kind, mark) :: after) := by
    simp [OutlineTag.words]
  refine isPiece_of_read whole fun token offset opens _ => ?_
  obtain ⟨leaves, closes, name, outline⟩ := readOpenTag_words proper ends mark token offset after
  unfold readPiece readOpening
  rw [opens]
  simp only [name, proper.plain, Bool.false_eq_true, and_false, if_false]
  exact ⟨⟨leaves.problems, leaves.rest⟩, _, by rw [closes], name, outline⟩

theorem isPiece_closing (tags : LiteralTags) (name : String) (after : List Lexeme) :
    IsPiece tags (fun form => ∃ node, form = .closing node ∧ node.name = name)
      [(.closingOpenBracket, ['<', '/']), (.identifier, name.toList), (.closeBracket, ['>'])]
      after := by
  refine isPiece_of_read rfl fun token offset kind _ => ?_
  obtain ⟨leaves, same⟩ := readCloseTag_words token offset name after
  unfold readPiece
  rw [kind]
  exact ⟨⟨leaves.problems, leaves.rest⟩, _, rfl, same⟩

/-- A piece comes next that is not a run of text, or none. -/
def StartsPiece (after : List Lexeme) : Prop :=
  ∀ lexeme ∈ after.head?, beginsPiece lexeme.1 = true

theorem isPiece_text {words : List Lexeme} (nonempty : words ≠ [])
    (kinds : ∀ lexeme ∈ words, isTextKind lexeme.1) {after : List Lexeme}
    (starts : StartsPiece after) :
    IsPiece tags (PieceForm.Shows (.text (String.ofList (spelling words)))) words after := by
  obtain ⟨⟨kind, chars⟩, others, rfl⟩ := List.exists_cons_of_ne_nil nonempty
  obtain ⟨here, later⟩ := List.forall_mem_cons.mp kinds
  refine isPiece_of_read List.cons_append fun token offset same text => ?_
  rw [place_append]
  have inside : ∀ token ∈ Token.place offset others, (!beginsPiece token.kind) = true := by
    intro token member
    obtain ⟨lexeme, listed, found⟩ := kind_of_mem_place member
    rw [found]
    rcases later lexeme listed with plain | plain <;> rw [plain] <;> rfl
  generalize offset + byteLength (spelling others) = next
  have behind : ∀ token ∈ (Token.place next after).head?, (!beginsPiece token.kind) = false := by
    intro token first
    cases after with
    | nil => cases first
    | cons lexeme after =>
      obtain rfl := Option.some.inj first
      rw [starts lexeme rfl]
      rfl
  obtain ⟨taken, left⟩ := takeWhile_of_all inside behind
  have value : joinTexts (token :: Token.place offset others) =
      String.ofList (spelling ((kind, chars) :: others)) := by
    rw [joinTexts_cons, joinTexts_place, text, spelling_cons, String.ofList_append]
  have read : readPiece tags token (Token.place offset others ++ Token.place next after) =
      ⟨.leaf (.text (readText token (Token.place offset others ++ Token.place next after)).node),
        [], Token.place next after⟩ := by
    unfold readPiece
    rw [same]
    have plain : isTextKind kind := here
    rcases plain with plain | plain <;> rw [plain] <;> simp [readText, left]
  rw [read]
  refine ⟨⟨rfl, next, rfl⟩, _, rfl, fun contents => ?_⟩
  rw [outlines?, ← value]
  simp only [readText, taken]

/-! ### Assembling -/

section Assembling

variable {assembly : Assembly} {source : String} {span : Span} {rest : List Piece}

/-- Contents added one after the other. -/
def Assembly.addAll (assembly : Assembly) (contents : List Content) : Assembly :=
  contents.foldl Assembly.add assembly

theorem Assembly.addAll_opened (element : OpenElement) (outer : List OpenElement)
    (top contents : List Content) :
    Assembly.addAll ⟨element :: outer, top⟩ contents =
      ⟨{ element with contents := contents.reverse ++ element.contents } :: outer, top⟩ := by
  induction contents generalizing element with
  | nil => rfl
  | cons content contents ih =>
    refine (ih { element with contents := content :: element.contents }).trans ?_
    simp

theorem Assembly.addAll_top (top contents : List Content) :
    Assembly.addAll ⟨[], top⟩ contents = ⟨[], contents.reverse ++ top⟩ := by
  induction contents generalizing top with
  | nil => rfl
  | cons content contents ih =>
    refine (ih (content :: top)).trans ?_
    simp

theorem Assembly.length_add (assembly : Assembly) (content : Content) :
    (assembly.add content).opened.length = assembly.opened.length := by
  unfold Assembly.add
  split
  next same => rw [same]
  next same => rw [same]; rfl

theorem assemble_leaf (content : Content) :
    assemble assembly (⟨.leaf content, [], source, span⟩ :: rest) =
      assemble (assembly.add content) rest := by
  rw [assemble]
  simp [Piece.opensElement, Assembly.step]

theorem assemble_selfClose (tag : OpenTag) (room : assembly.opened.length < elementDepthLimit) :
    assemble assembly (⟨.opening tag .selfClose, [], source, span⟩ :: rest) =
      assemble (assembly.add
        (.element ⟨tag, .selfClosing, none, ⟨tag.span.start, span.stop⟩⟩)) rest := by
  rw [assemble]
  simp [Nat.not_le_of_lt room, Assembly.step]

theorem assemble_opening (tag : OpenTag) (room : assembly.opened.length < elementDepthLimit) :
    assemble assembly (⟨.opening tag .close, [], source, span⟩ :: rest) =
      assemble ⟨⟨tag, span.stop, []⟩ :: assembly.opened, assembly.contents⟩ rest := by
  rw [assemble]
  simp [Nat.not_le_of_lt room, Assembly.step]

theorem assemble_closing {tag : CloseTag} {element : OpenElement} {outer : List OpenElement}
    {top : List Content} (same : tag.name = element.tag.name) :
    assemble ⟨element :: outer, top⟩ (⟨.closing tag, [], source, span⟩ :: rest) =
      assemble (Assembly.add ⟨outer, top⟩ (.element (element.finish (some tag)))) rest := by
  rw [assemble]
  simp [Piece.opensElement, Assembly.step, same, equalIgnoringCase, Assembly.close]

end Assembling

theorem Outline.startsPiece {all : List Outline} (start : startsText all = false)
    {after : List Lexeme} (starts : StartsPiece after) : StartsPiece (words tags all ++ after) := by
  match all with
  | [] =>
    rw [words]
    exact starts
  | .text value :: others => cases start
  | .template _ :: _ | .comment _ :: _ | .single _ :: _ | .element _ _ :: _ =>
    rw [words]
    intro lexeme first
    obtain rfl := Option.some.inj first
    rfl

theorem spelling_lexemes (tags : LiteralTags) (mode : Mode) (chars : List Char) :
    spelling (lexemes tags mode chars) = chars := by
  have whole := (lexemes_cut tags mode chars).whole
  rwa [List.append_nil] at whole

/-- Lexemes that are assembled to contents with some outlines, whatever comes behind them. -/
def Assembles (tags : LiteralTags) (assembly : Assembly) (all : List Outline)
    (words after : List Lexeme) : Prop :=
  ∀ offset, ∃ contents next, outlines? contents = some all ∧
    assemble assembly (pieces tags (Token.place offset (words ++ after))) =
      assemble (assembly.addAll contents) (pieces tags (Token.place next after))

/-- One more content in front. -/
theorem Assembles.cons {assembly : Assembly} {outline : Outline} {all : List Outline}
    {first words after : List Lexeme}
    (here : ∀ offset, ∃ content next, content.Shows outline ∧
      assemble assembly (pieces tags (Token.place offset (first ++ (words ++ after)))) =
        assemble (assembly.add content) (pieces tags (Token.place next (words ++ after))))
    (later : ∀ content, Assembles tags (assembly.add content) all words after) :
    Assembles tags assembly (outline :: all) (first ++ words) after := by
  intro offset
  obtain ⟨content, next, shows, read⟩ := here offset
  obtain ⟨contents, last, outlines, rest⟩ := later content next
  refine ⟨content :: contents, last, ?_, ?_⟩
  · rw [shows, outlines]
    rfl
  · rw [List.append_assoc, read, rest]
    rfl

section Assembles

variable {assembly : Assembly} {outline : Outline} {all : List Outline}
  {first words after : List Lexeme}

theorem Assembles.leaf (piece : IsPiece tags (PieceForm.Shows outline) first (words ++ after))
    (later : ∀ content, Assembles tags (assembly.add content) all words after) :
    Assembles tags assembly (outline :: all) (first ++ words) after := by
  refine .cons (fun offset => ?_) later
  obtain ⟨_, source, span, next, read, content, rfl, shows⟩ := piece offset
  exact ⟨content, next, shows, by rw [read, assemble_leaf]⟩

theorem Assembles.text {value : String} (text : IsTextRun value)
    (next : StartsPiece (words ++ after))
    (later : ∀ content, Assembles tags (assembly.add content) all words after) :
    Assembles tags assembly (.text value :: all) (lexemes tags .markup value.toList ++ words)
      after := by
  have spelled := spelling_lexemes tags .markup value.toList
  have nonempty : lexemes tags .markup value.toList ≠ [] := by
    intro empty
    rw [empty] at spelled
    exact text.nonempty spelled.symm
  have kinds := (@lexemes_text tags value.toList [] ⟨text.plain, text.last⟩ (.inl rfl)).2
  have piece := @isPiece_text tags _ nonempty kinds _ next
  rw [spelled, String.ofList_toList] at piece
  exact .leaf piece later

theorem Assembles.single {tag : OutlineTag} (proper : tag.IsGrammatical tags)
    (room : assembly.opened.length < elementDepthLimit)
    (later : ∀ content, Assembles tags (assembly.add content) all words after) :
    Assembles tags assembly (.single tag :: all)
      (tag.words ++ [(.selfCloseBracket, ['/', '>'])] ++ words) after := by
  refine .cons (fun offset => ?_) later
  obtain ⟨_, source, span, next, read, node, rfl, _, same⟩ :=
    isPiece_opening proper .selfClose ['/', '>'] (words ++ after) offset
  refine ⟨_, next, fun contents => ?_, by rw [read, assemble_selfClose node room]⟩
  rw [outlines?, same]
  rfl

/-- The lexemes of the close tag of an element. -/
def closingWords (name : String) : List Lexeme :=
  [(.closingOpenBracket, ['<', '/']), (.identifier, name.toList), (.closeBracket, ['>'])]

/-- An element is put together from its tags and what its contents are assembled to. -/
theorem Assembles.element {tag : OutlineTag} {children : List Outline} {inner : List Lexeme}
    (proper : tag.IsGrammatical tags) (room : assembly.opened.length < elementDepthLimit)
    (body : ∀ node stop, Assembles tags ⟨⟨node, stop, []⟩ :: assembly.opened, assembly.contents⟩
      children inner (closingWords tag.name ++ (words ++ after)))
    (later : ∀ content, Assembles tags (assembly.add content) all words after) :
    Assembles tags assembly (.element tag children :: all)
      (tag.words ++ [(.closeBracket, ['>'])] ++ (inner ++ closingWords tag.name) ++ words)
      after := by
  refine .cons (fun offset => ?_) later
  obtain ⟨_, source, span, next, read, node, rfl, name, same⟩ := isPiece_opening proper .close ['>']
    (inner ++ (closingWords tag.name ++ (words ++ after))) offset
  obtain ⟨nested, between, inlines, filled⟩ := body node span.stop next
  obtain ⟨_, _, _, behind, closes, close, rfl, named⟩ :=
    isPiece_closing tags tag.name (words ++ after) between
  let element : OpenElement := ⟨node, span.stop, nested.reverse ++ []⟩
  refine ⟨.element (element.finish (some close)), behind, fun contents => ?_, ?_⟩
  · simp only [OpenElement.finish, element, List.append_nil, List.reverse_reverse]
    rw [outlines?, inlines, same]
    rfl
  · rw [List.append_assoc (tag.words ++ _), List.append_assoc inner, read,
      assemble_opening node room, filled, Assembly.addAll_opened]
    show assemble _ (pieces tags (Token.place between (_ ++ (words ++ after)))) = _
    rw [closingWords, closes, assemble_closing (named.trans name.symm)]

end Assembles

/-- **Outlines are added to the contents of whatever is open**, if that leaves room for the elements
among them. -/
theorem assemble_words {all : List Outline} (proper : Outline.IsGrammatical tags all)
    (assembly : Assembly)
    (room : Outline.height all + assembly.opened.length ≤ elementDepthLimit)
    {after : List Lexeme} (starts : StartsPiece after) :
    Assembles tags assembly all (Outline.words tags all) after := by
  induction all using Outline.print.induct generalizing assembly after with
  | case1 =>
    rw [Outline.words]
    exact fun offset => ⟨[], offset, by rw [outlines?], rfl⟩
  | case2 value others ih =>
    rw [Outline.IsGrammatical] at proper
    rw [Outline.height] at room
    obtain ⟨text, start, later⟩ := proper
    rw [Outline.words]
    exact .text text (Outline.startsPiece start starts) fun content =>
      ih later _ (by rwa [Assembly.length_add]) starts
  | case3 expression others ih =>
    rw [Outline.IsGrammatical] at proper
    rw [Outline.height] at room
    rw [Outline.words]
    exact .leaf (isPiece_template proper.1 _) fun content =>
      ih proper.2 _ (by rwa [Assembly.length_add]) starts
  | case4 content others ih =>
    rw [Outline.IsGrammatical] at proper
    rw [Outline.height] at room
    rw [Outline.words]
    exact .leaf (isPiece_comment content _) fun content =>
      ih proper.2 _ (by rwa [Assembly.length_add]) starts
  | case5 tag others ih =>
    rw [Outline.IsGrammatical] at proper
    rw [Outline.height] at room
    have whole : Outline.words tags (.single tag :: others) =
        tag.words ++ [(.selfCloseBracket, ['/', '>'])] ++ Outline.words tags others := by
      simp [Outline.words]
    rw [whole]
    exact .single proper.1 (by omega) fun content =>
      ih proper.2 _ (by rw [Assembly.length_add]; omega) starts
  | case6 tag children others inner ih =>
    rw [Outline.IsGrammatical] at proper
    rw [Outline.height] at room
    obtain ⟨here, inside, later⟩ := proper
    have whole : Outline.words tags (.element tag children :: others) =
        tag.words ++ [(.closeBracket, ['>'])] ++
          (Outline.words tags children ++ closingWords tag.name) ++ Outline.words tags others := by
      simp [Outline.words, closingWords]
    have closing : StartsPiece
        (closingWords tag.name ++ (Outline.words tags others ++ after)) := by
      intro lexeme first
      obtain rfl := Option.some.inj first
      rfl
    rw [whole]
    refine .element here (by omega) (fun node stop => ?_) fun content => ?_
    · exact inner inside _ (by rw [List.length_cons]; omega) closing
    · exact ih later _ (by rw [Assembly.length_add]; omega) starts

/-! ### Documents -/

/-- **Parsing inverts writing.** Outlines of the markup grammar that nest at most as deep as the
parser follows are read back from what is written for them, and no problem is reported. -/
theorem parse_print (tags : LiteralTags) (all : List Outline)
    (proper : Outline.IsGrammatical tags all) (shallow : Outline.height all ≤ elementDepthLimit) :
    (parse tags (String.ofList (Outline.print all))).diagnostics = [] ∧
      outlines? (parse tags (String.ofList (Outline.print all))).root.children = some all := by
  have tokens : tokenize tags (String.ofList (Outline.print all)) =
      Token.place 0 (Outline.words tags all ++ []) := by
    have whole := lexemes_print proper (.inl rfl)
    rw [List.append_nil] at whole
    unfold tokenize
    rw [String.toList_ofList, whole, lexemes]
  have nothing : StartsPiece [] := fun _ first => by cases first
  obtain ⟨contents, next, outlines, rest⟩ := assemble_words proper ⟨[], []⟩ shallow nothing 0
  have assembled : assemble ⟨[], []⟩ (pieces tags (Token.place 0 (Outline.words tags all ++ []))) =
      (contents, []) := by
    rw [rest, Assembly.addAll_top, Token.place, pieces, assemble]
    simp [finishAll]
  unfold parse
  simp only [tokens, assembled, true_and]
  exact outlines

/-- An element with attributes of every kind around contents of every kind. -/
def mixedOutline : List Outline :=
  [.element ⟨"p", [⟨"a", .bare⟩, ⟨"b:c", .quoted "<d> \x7b"⟩, ⟨"for", .template "'x'"⟩]⟩
    [.text "1 < 2 \x7d ", .template "[\x7b 'a': '\x7d\x7d' \x7d]", .comment " - ",
      .single ⟨"_br", []⟩]]

/-- All of that is read back. -/
theorem parse_print_mixed :
    Outline.IsGrammatical .standard mixedOutline ∧
      Outline.height mixedOutline ≤ elementDepthLimit ∧
      (parse .standard (String.ofList (Outline.print mixedOutline))).diagnostics = [] ∧
      outlines? (parse .standard (String.ofList (Outline.print mixedOutline))).root.children =
        some mixedOutline := by
  have text : IsTextRun "1 < 2 \x7d " :=
    ⟨by decide, fun rest suffix => by
      have plain : ∀ rest ∈ "1 < 2 \x7d ".toList.tails, beginsMarkup rest = false := by decide
      exact plain rest ((List.mem_tails _ _).mpr suffix), by decide⟩
  have template : IsExpression "[\x7b 'a': '\x7d\x7d' \x7d]" :=
    ⟨by decide +kernel, by decide, by decide⟩
  have comment : IsCommentText " - " := ⟨by decide, by decide⟩
  have value : IsExpression "'x'" :=
    ⟨by decide +kernel, by decide, by decide⟩
  have pairs : ∀ pair ∈ [⟨"a", .bare⟩, ⟨"b:c", .quoted "<d> \x7b"⟩, ⟨"for", .template "'x'"⟩],
      OutlinePair.IsGrammatical pair := by
    simp only [List.forall_mem_cons]
    exact ⟨⟨by decide, trivial⟩, ⟨by decide, by decide, by decide, by decide⟩,
      ⟨by decide, value⟩, fun _ member => by cases member⟩
  have proper : Outline.IsGrammatical .standard mixedOutline := by
    simp only [mixedOutline, Outline.IsGrammatical, Outline.startsText]
    exact ⟨⟨by decide, by decide, pairs⟩,
      ⟨text, trivial, template, comment, ⟨by decide, by decide, fun _ member => by cases member⟩,
        trivial⟩, trivial⟩
  have shallow : Outline.height mixedOutline ≤ elementDepthLimit := by
    simp [mixedOutline, Outline.height, elementDepthLimit]
  exact ⟨proper, shallow, parse_print .standard mixedOutline proper shallow⟩

end PromptMarkup.Markup
