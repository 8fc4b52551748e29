/-
**Where the lexer stands.**

Behind its opening mark a template has blanks, an expression without blanks around it, blanks, and
the closing mark unless the source ends before it.

The tokens from any token on are what the lexer makes of the source from some place on, in the mode
that it is in there. A template is read in one step, so that its tokens are never torn apart, and
behind the bracket of an open tag the lexer stands in front of the name of the tag.

* `trimMarkup`: a text without blanks around it;
* `IsTail`, `templateLexemes_ends`: the parts of a template behind its opening mark, and its lexemes;
* `mem_templateKinds`: the kinds of the lexemes of those parts;
* `BetweenTags`, `Advances`: what a step between tags, and a step in any mode, can be;
* `step_advances`: every step is one of those;
* `StepSort`: steps by what they read;
* `Lexed`: tokens that are read from a place of a source on in a mode;
* `Lexed.exists_step`: the step in which a token is read;
* `exists_template_of_suffix`, `exists_name_of_suffix`: where the lexer stands at the opening mark
  of a template, and behind the bracket of an open tag.
-/

import PromptMarkup.Proofs.Markup.Lexemes
import PromptMarkup.Proofs.Markup.TokenTiling

namespace PromptMarkup.Markup

section Templates

open Text

/-! ### Trimming -/

/-- Every character is a blank of markup. -/
def AreBlank (chars : List Char) : Prop := ∀ char ∈ chars, isMarkupBlank char = true

theorem AreBlank.append {first second : List Char} (left : AreBlank first)
    (right : AreBlank second) : AreBlank (first ++ second) :=
  List.forall_mem_append.mpr ⟨left, right⟩

/-- A text without the blanks of markup at either end. -/
def trimMarkup (chars : List Char) : List Char :=
  trimEndBy isMarkupBlank (trimStartBy isMarkupBlank chars)

/-- What is trimmed off the front of a text that begins with something else. -/
theorem trimMarkup_append {blanks body : List Char}
    (blank : ∀ char ∈ blanks, isMarkupBlank char = true)
    (first : ∀ char ∈ body.head?, isMarkupBlank char = false) :
    trimMarkup (blanks ++ body) = trimEndBy isMarkupBlank body := by
  rw [trimMarkup, trimStartBy, List.dropWhile_append_of_pos blank]
  cases body with
  | nil => rfl
  | cons char rest => rw [List.dropWhile_cons, first char rfl, if_neg Bool.false_ne_true]

theorem eq_nil_of_trimEndBy {body : List Char} (none : trimEndBy isMarkupBlank body = [])
    (first : ∀ char ∈ body.head?, isMarkupBlank char = false) : body = [] := by
  cases body with
  | nil => rfl
  | cons char rest =>
    have all := List.dropWhile_eq_nil_iff.mp (List.reverse_eq_nil_iff.mp none) char
      (List.mem_reverse.mpr List.mem_cons_self)
    rw [first char rfl] at all
    cases all

theorem head?_dropWhile (keep : Char → Bool) (chars : List Char) :
    ∀ char ∈ (chars.dropWhile keep).head?, keep char = false := by
  intro char first
  induction chars with
  | nil => cases first
  | cons other rest ih =>
    rw [List.dropWhile_cons] at first
    split at first
    · exact ih first
    next kept =>
      obtain rfl := Option.some.inj first
      exact Bool.eq_false_iff.mpr kept

/-- What stands between the blanks in front of a body and those at its end is all that trimming
leaves. -/
theorem trimMarkup_inside {blanks body : List Char}
    (blank : ∀ char ∈ blanks, isMarkupBlank char = true)
    (first : ∀ char ∈ body.head?, isMarkupBlank char = false) :
    trimMarkup (blanks ++ (trimEndBy isMarkupBlank body ++
        body.drop (trimEndBy isMarkupBlank body).length)) = trimEndBy isMarkupBlank body ∧
      (trimEndBy isMarkupBlank body = [] →
        body.drop (trimEndBy isMarkupBlank body).length = []) := by
  rw [trimEndBy_append_drop]
  refine ⟨trimMarkup_append blank first, fun none => ?_⟩
  rw [eq_nil_of_trimEndBy none first, List.drop_nil]

/-! ### Templates -/

/-- The parts of a template behind its opening mark: the middle one is all that trimming leaves, and
where the closing mark is missing nothing is behind. -/
structure IsTail (blanks content trailing closing rest : List Char) : Prop where
  trimmed : trimMarkup (blanks ++ (content ++ trailing)) = content
  empty : content = [] → trailing = []
  ends : closing = templateClosing ∨ closing = [] ∧ rest = []

/-- The lexemes of a template behind its opening mark. -/
def tailLexemes (blanks content trailing closing : List Char) : List Lexeme :=
  lexeme .whitespace blanks ++ (lexeme .textContent content ++
    (lexeme .whitespace trailing ++ lexeme .templateClose closing))

/-- A template stops at its closing mark or at the end. -/
theorem cutExpression_ends (depth : Nat) (mark : Option Char) (chars : List Char) :
    (cutExpression depth mark chars).2 = [] ∨
      ∃ rest, (cutExpression depth mark chars).2 = templateClosing ++ rest := by
  fun_induction cutExpression depth mark chars with
  | case1 => exact .inl rfl
  | case2 =>
    rename_i same ih
    rwa [same] at ih
  | case3 =>
    rename_i same ih
    rwa [same] at ih
  | case4 => assumption
  | case5 depth char rest other closes =>
    obtain ⟨rfl, _, next⟩ := closes
    obtain ⟨after, rfl⟩ := List.head?_eq_some_iff.mp next
    exact .inr ⟨after, rfl⟩
  | case6 =>
    rename_i same ih
    rwa [same] at ih

/-- **Behind its opening mark a template ends**, and if it is not closed nothing is left. -/
theorem templateLexemes_ends (chars : List Char) :
    ∃ blanks content trailing closing,
      (templateLexemes chars).1 =
        (.templateOpen, templateOpening) :: tailLexemes blanks content trailing closing ∧
      IsTail blanks content trailing closing (templateLexemes chars).2 := by
  have blank : ∀ char ∈ (cutWhile isMarkupBlank chars).1, isMarkupBlank char = true :=
    fun char member => List.mem_takeWhile_imp member
  have first : ∀ char ∈ (cutWhile isMarkupBlank chars).2.head?, isMarkupBlank char = false :=
    head?_dropWhile isMarkupBlank chars
  have whole := cutExpression_append 0 none (cutWhile isMarkupBlank chars).2
  have ends := cutExpression_ends 0 none (cutWhile isMarkupBlank chars).2
  unfold templateLexemes
  simp only
  generalize (cutWhile isMarkupBlank chars).1 = blanks at blank ⊢
  generalize cutExpression 0 none (cutWhile isMarkupBlank chars).2 = parts at whole ends ⊢
  obtain ⟨body, after⟩ := parts
  simp only at whole ends ⊢
  have begins : ∀ char ∈ body.head?, isMarkupBlank char = false := by
    intro char here
    refine first char ?_
    rw [← whole, List.head?_append, here]
    rfl
  obtain ⟨trimmed, empty⟩ := trimMarkup_inside blank begins
  generalize trimEndBy isMarkupBlank body = content at trimmed empty ⊢
  generalize body.drop content.length = trailing at trimmed empty ⊢
  split
  next rest found =>
    refine ⟨blanks, content, trailing, templateClosing, ?_, trimmed, empty, .inl rfl⟩
    simp only [tailLexemes, List.append_assoc, List.cons_append]
    rfl
  next found =>
    have last : after = [] := by
      rcases ends with none | ⟨rest, rfl⟩
      · exact none
      · simp [templateClosing, dropPrefix?] at found
    refine ⟨blanks, content, trailing, [], ?_, trimmed, empty, .inr ⟨rfl, last⟩⟩
    simp only [tailLexemes, List.append_assoc, List.cons_append]
    exact congrArg _ (congrArg _ (congrArg _ (List.append_nil _).symm))

/-! ### Kinds -/

theorem kind_of_mem_lexeme {kind : TokenKind} {text : List Char} {item : Lexeme}
    (member : item ∈ lexeme kind text) : item.1 = kind := by
  unfold lexeme at member
  split at member
  · cases member
  · rw [List.mem_singleton.mp member]

/-- The kinds of the lexemes of a template behind its opening mark. -/
def templateKinds : List TokenKind := [.whitespace, .textContent, .templateClose]

theorem mem_templateKinds {blanks content trailing closing : List Char} :
    ∀ item ∈ tailLexemes blanks content trailing closing, item.1 ∈ templateKinds := by
  intro item member
  simp only [tailLexemes, List.mem_append] at member
  rcases member with member | member | member | member
  all_goals
    rw [kind_of_mem_lexeme member]
    decide

/-! ### Spelling -/

@[simp] theorem spelling_lexeme (kind : TokenKind) (text : List Char) :
    spelling (lexeme kind text) = text := by
  unfold lexeme
  cases text with
  | nil => rfl
  | cons first rest => exact List.append_nil _

@[simp] theorem spelling_tailLexemes (blanks content trailing closing : List Char) :
    spelling (tailLexemes blanks content trailing closing) =
      blanks ++ (content ++ (trailing ++ closing)) := by
  simp [tailLexemes]

end Templates

open Text

variable {tags : LiteralTags}

/-! ### Kinds of lexemes -/

/-- The kinds of the lexemes of a comment. -/
def commentKinds : List TokenKind :=
  [.commentOpen, .whitespace, .pragmaKeyword, .textContent, .commentClose]

theorem mem_commentKinds_of_pragma {chars : List Char} :
    ∀ item ∈ pragmaLexemes chars, item.1 ∈ commentKinds := by
  fun_induction pragmaLexemes chars with
  | case1 => exact List.forall_mem_nil _
  | case2 _ _ _ ih | case3 _ _ _ _ _ ih | case4 _ _ _ _ _ ih =>
    refine List.forall_mem_cons.mpr ⟨?_, ih⟩
    simp [commentKinds]

theorem mem_commentKinds (chars : List Char) :
    ∀ item ∈ (commentLexemes chars).1, item.1 ∈ commentKinds := by
  have words : ∀ body, ∀ item ∈ (if pragmaWord.isPrefixOf (trimStart body) then pragmaLexemes body
      else lexeme .textContent body), item.1 ∈ commentKinds := by
    intro body item member
    split at member
    · exact mem_commentKinds_of_pragma item member
    · rw [kind_of_mem_lexeme member]
      decide
  unfold commentLexemes
  simp only
  split
  · intro item member
    rcases List.mem_append.mp member with member | member
    · exact List.forall_mem_cons.mpr ⟨by decide, words _⟩ item member
    · rw [List.mem_singleton.mp member]
      decide
  · exact List.forall_mem_cons.mpr ⟨by decide, words _⟩

/-! ### Steps -/

/-- What a step between tags can be. -/
inductive BetweenTags (tags : LiteralTags) : List Char → Step → Prop
  | comment (inner : List Char) : BetweenTags tags (commentOpening ++ inner)
      ⟨(commentLexemes inner).1, .markup, (commentLexemes inner).2⟩
  | template (inner : List Char) : BetweenTags tags (templateOpening ++ inner)
      ⟨(templateLexemes inner).1, .markup, (templateLexemes inner).2⟩
  | closing {rest : List Char} : startsName rest = true →
      BetweenTags tags ('<' :: '/' :: rest) ⟨[(.closingOpenBracket, ['<', '/'])], .tag none, rest⟩
  | opening {rest : List Char} : startsName rest = true →
      BetweenTags tags ('<' :: rest) ⟨[(.openBracket, ['<'])], .tag (literalName? tags rest), rest⟩
  | text {kind : TokenKind} {text rest chars : List Char} :
      kind = .whitespace ∨ kind = .textContent → text ++ rest = chars →
      BetweenTags tags chars ⟨[(kind, text)], .markup, rest⟩

/-- What a step can be. Inside a tag and in front of a close tag an angle bracket is read as between
tags. -/
inductive Advances (tags : LiteralTags) : Mode → List Char → Step → Prop
  | markup {chars : List Char} {step : Step} :
      BetweenTags tags chars step → Advances tags .markup chars step
  | bracket {literal : Option (List Char)} {chars : List Char} {step : Step} :
      BetweenTags tags chars step → chars.head? = some '<' → Advances tags (.tag literal) chars step
  | word {literal : Option (List Char)} {kind : TokenKind} {text rest chars : List Char} :
      kind = .whitespace ∨ kind = .identifier ∨ kind = .textContent → text ++ rest = chars →
      Advances tags (.tag literal) chars ⟨[(kind, text)], .tag literal, rest⟩
  | template {literal : Option (List Char)} (inner : List Char) :
      Advances tags (.tag literal) (templateOpening ++ inner)
        ⟨(templateLexemes inner).1, .tag literal, (templateLexemes inner).2⟩
  | selfClose {literal : Option (List Char)} (rest : List Char) :
      Advances tags (.tag literal) ('/' :: '>' :: rest)
        ⟨[(.selfCloseBracket, ['/', '>'])], .markup, rest⟩
  | close {literal : Option (List Char)} (rest : List Char) :
      Advances tags (.tag literal) ('>' :: rest)
        ⟨[(.closeBracket, ['>'])], literal.elim .markup .literal, rest⟩
  | equals {literal : Option (List Char)} (rest : List Char) :
      Advances tags (.tag literal) ('=' :: rest) ⟨[(.equals, ['='])], .tag literal, rest⟩
  | quote {literal : Option (List Char)} (mark : QuoteMark) (rest : List Char) :
      Advances tags (.tag literal) (mark.char :: rest)
        ⟨[(mark.kind, [mark.char])], .quoted mark literal, rest⟩
  | unquote {literal : Option (List Char)} (mark : QuoteMark) (rest : List Char) :
      Advances tags (.quoted mark literal) (mark.char :: rest)
        ⟨[(mark.kind, [mark.char])], .tag literal, rest⟩
  | quotedTemplate {literal : Option (List Char)} {mark : QuoteMark} (inner : List Char) :
      Advances tags (.quoted mark literal) (templateOpening ++ inner)
        ⟨(templateLexemes inner).1, .quoted mark literal, (templateLexemes inner).2⟩
  | quotedText {literal : Option (List Char)} {mark : QuoteMark} {text rest chars : List Char} :
      text ++ rest = chars → Advances tags (.quoted mark literal) chars
        ⟨[(.textContent, text)], .quoted mark literal, rest⟩
  | closeLiteral {name chars : List Char} {step : Step} :
      BetweenTags tags chars step → closesLiteral name chars = true →
      Advances tags (.literal name) chars step
  | body {name : List Char} (first : Char) (rest : List Char) :
      closesLiteral name (first :: rest) = false →
      Advances tags (.literal name) (first :: rest)
        ⟨[(.textContent, first :: (cutWhere (closesLiteral name) rest).1)], .markup,
          (cutWhere (closesLiteral name) rest).2⟩

theorem markupStep_betweenTags (first : Char) (rest : List Char) :
    BetweenTags tags (first :: rest) (markupStep tags first rest) := by
  unfold markupStep
  split
  next body found =>
    rw [eq_append_of_dropPrefix? found]
    exact .comment body
  next =>
    split
    next body found =>
      rw [eq_append_of_dropPrefix? found]
      exact .template body
    next =>
      split
      next closing =>
        obtain ⟨rfl, slash, name⟩ := closing
        obtain ⟨more, rfl⟩ := List.head?_eq_some_iff.mp slash
        exact .closing name
      next =>
        split
        next opening =>
          obtain ⟨rfl, name⟩ := opening
          exact .opening name
        next =>
          split
          · exact .text (.inl rfl) (congrArg (first :: ·) (cutWhile_append isMarkupBlank rest))
          · exact .text (.inr rfl) (congrArg (first :: ·) (cutWhere_append _ rest))

theorem tagStep_advances (literal : Option (List Char)) (first : Char) (rest : List Char) :
    Advances tags (.tag literal) (first :: rest) (tagStep tags literal first rest) := by
  unfold tagStep
  split
  · exact .word (.inl rfl) (congrArg (first :: ·) (cutWhile_append isMarkupBlank rest))
  split
  · exact .word (.inr (.inl rfl)) (congrArg (first :: ·) (cutWhile_append isNameContinue rest))
  split
  next closing =>
    obtain ⟨rfl, bracket⟩ := closing
    obtain ⟨more, rfl⟩ := List.head?_eq_some_iff.mp bracket
    exact .selfClose more
  split
  next same =>
    subst same
    exact .close rest
  split
  next same =>
    subst same
    exact .equals rest
  split
  next same =>
    subst same
    exact .quote .double rest
  split
  next same =>
    subst same
    exact .quote .single rest
  split
  next same => exact .bracket (markupStep_betweenTags first rest) (congrArg some same)
  split
  next body found =>
    rw [eq_append_of_dropPrefix? found]
    exact .template body
  next => exact .word (.inr (.inr rfl)) (congrArg (first :: ·) (cutWhere_append endsTagText rest))

theorem quotedStep_advances (mark : QuoteMark) (literal : Option (List Char)) (first : Char)
    (rest : List Char) :
    Advances tags (.quoted mark literal) (first :: rest) (quotedStep mark literal first rest) := by
  unfold quotedStep
  split
  next same =>
    subst same
    exact .unquote mark rest
  split
  next body found =>
    rw [eq_append_of_dropPrefix? found]
    exact .quotedTemplate body
  next => exact .quotedText (congrArg (first :: ·) (cutWhere_append _ rest))

/-- **What a step can be**, in any mode. -/
theorem step_advances (tags : LiteralTags) (mode : Mode) (first : Char) (rest : List Char) :
    Advances tags mode (first :: rest) (step tags mode first rest) := by
  cases mode with
  | markup => exact .markup (markupStep_betweenTags first rest)
  | tag literal => exact tagStep_advances literal first rest
  | quoted mark literal => exact quotedStep_advances mark literal first rest
  | literal name =>
    show Advances tags (.literal name) (first :: rest) (literalStep tags name first rest)
    unfold literalStep
    split
    next closes => exact .closeLiteral (markupStep_betweenTags first rest) closes
    next goes => exact .body first rest (Bool.eq_false_iff.mpr goes)

/-- Steps by what they read: a template, a comment, the bracket of an open tag, or one lexeme of
another kind. -/
inductive StepSort (tags : LiteralTags) (chars : List Char) : Step → Prop
  | template {inner : List Char} (next : Mode) : chars = templateOpening ++ inner →
      StepSort tags chars ⟨(templateLexemes inner).1, next, (templateLexemes inner).2⟩
  | comment (inner : List Char) (next : Mode) (rest : List Char) :
      StepSort tags chars ⟨(commentLexemes inner).1, next, rest⟩
  | opening {inner : List Char} : chars = '<' :: inner → startsName inner = true →
      StepSort tags chars ⟨[(.openBracket, ['<'])], .tag (literalName? tags inner), inner⟩
  | other {kind : TokenKind} (text : List Char) (next : Mode) (rest : List Char) :
      kind ∉ [TokenKind.templateOpen, .openBracket] →
      StepSort tags chars ⟨[(kind, text)], next, rest⟩

theorem BetweenTags.sort {chars : List Char} {step : Step} (between : BetweenTags tags chars step) :
    StepSort tags chars step := by
  cases between with
  | comment inner => exact .comment inner _ _
  | template inner => exact .template _ rfl
  | opening name => exact .opening rfl name
  | closing => exact .other _ _ _ (by decide)
  | text plain => exact .other _ _ _ (by rcases plain with rfl | rfl <;> decide)

theorem Advances.sort {mode : Mode} {chars : List Char} {step : Step}
    (advances : Advances tags mode chars step) : StepSort tags chars step := by
  cases advances with
  | markup here | bracket here | closeLiteral here => exact here.sort
  | template inner | quotedTemplate inner => exact .template _ rfl
  | word plain => exact .other _ _ _ (by rcases plain with rfl | rfl | rfl <;> decide)
  | quote mark | unquote mark => exact .other _ _ _ (by cases mark <;> decide)
  | selfClose | close | equals | quotedText | body => exact .other _ _ _ (by decide)

section Sorts

variable {chars : List Char} {step : Step} {item : Lexeme}

/-- A step that reads the opening mark of a template reads all of the template. -/
theorem StepSort.template_of_mem (sort : StepSort tags chars step) (member : item ∈ step.lexemes)
    (kind : item.1 = .templateOpen) :
    ∃ inner next, chars = templateOpening ++ inner ∧
      step = ⟨(templateLexemes inner).1, next, (templateLexemes inner).2⟩ := by
  cases sort with
  | template next whole => exact ⟨_, next, whole, rfl⟩
  | comment inner =>
    have listed := mem_commentKinds inner item member
    rw [kind] at listed
    exact absurd listed (by decide)
  | opening =>
    rw [List.mem_singleton.mp member] at kind
    cases kind
  | other text next rest none =>
    rw [List.mem_singleton.mp member] at kind
    obtain rfl : _ = TokenKind.templateOpen := kind
    exact absurd List.mem_cons_self none

/-- A step that reads the bracket of an open tag reads nothing else, and stands in front of the name
of the tag. -/
theorem StepSort.opening_of_mem (sort : StepSort tags chars step) (member : item ∈ step.lexemes)
    (kind : item.1 = .openBracket) :
    ∃ inner, chars = '<' :: inner ∧ startsName inner = true ∧
      step = ⟨[(.openBracket, ['<'])], .tag (literalName? tags inner), inner⟩ := by
  cases sort with
  | @template inner =>
    obtain ⟨_, _, _, _, same, _⟩ := templateLexemes_ends inner
    rw [same] at member
    rcases List.mem_cons.mp member with rfl | member
    · cases kind
    · have listed := mem_templateKinds item member
      rw [kind] at listed
      exact absurd listed (by decide)
  | comment inner =>
    have listed := mem_commentKinds inner item member
    rw [kind] at listed
    exact absurd listed (by decide)
  | opening whole name => exact ⟨_, whole, name, rfl⟩
  | other text next rest none =>
    rw [List.mem_singleton.mp member] at kind
    obtain rfl : _ = TokenKind.openBracket := kind
    exact absurd (List.mem_cons_of_mem _ List.mem_cons_self) none

end Sorts

/-! ### Places -/

/-- Tokens of the end of a source, behind some characters, that the lexer reads in a mode. -/
structure Lexed (tags : LiteralTags) (source : String) (before : List Char) (mode : Mode)
    (chars : List Char) (tokens : List Token) : Prop where
  whole : source.toList = before ++ chars
  tokens_eq : tokens = Token.place (byteLength before) (lexemes tags mode chars)

section Lexed

variable {source : String} {before chars : List Char} {mode : Mode} {tokens rest : List Token}
  {token : Token}

theorem Lexed.tokenize (tags : LiteralTags) (source : String) :
    Lexed tags source [] .markup source.toList (tokenize tags source) := ⟨rfl, rfl⟩

/-- Behind the tokens of a step the lexer goes on in the mode that the step leaves it in. -/
theorem Lexed.advance {first : Char} {more : List Char}
    (lexed : Lexed tags source before mode (first :: more) tokens) :
    ∃ others,
      tokens = Token.place (byteLength before) (step tags mode first more).lexemes ++ others ∧
      Lexed tags source (before ++ spelling (step tags mode first more).lexemes)
        (step tags mode first more).mode (step tags mode first more).rest others := by
  obtain ⟨whole, rfl⟩ := lexed
  refine ⟨_, ?_, ?_, rfl⟩
  · rw [lexemes, place_append, byteLength_append]
  · rw [whole, List.append_assoc, (step_cuts tags mode first more).whole]

/-- The last tokens of some lexemes are those of the last lexemes. -/
theorem exists_place_of_suffix {lexemes : List Lexeme} {offset : Nat}
    (suffix : tokens <:+ Token.place offset lexemes) :
    ∃ front back, lexemes = front ++ back ∧
      tokens = Token.place (offset + byteLength (spelling front)) back := by
  induction lexemes generalizing offset with
  | nil =>
    obtain rfl := List.suffix_nil.mp suffix
    exact ⟨[], [], rfl, rfl⟩
  | cons lexeme rest ih =>
    obtain ⟨kind, chars⟩ := lexeme
    rcases List.suffix_cons_iff.mp suffix with rfl | later
    · exact ⟨[], (kind, chars) :: rest, rfl, rfl⟩
    · obtain ⟨front, back, rfl, rfl⟩ := ih later
      refine ⟨(kind, chars) :: front, back, rfl, ?_⟩
      rw [spelling_cons, byteLength_append, Nat.add_assoc]

/-- **Every token is read in a step**, and what is behind the tokens of that step is read on from
there. -/
theorem Lexed.exists_step (lexed : Lexed tags source before mode chars tokens)
    (suffix : token :: rest <:+ tokens) :
    ∃ ahead inner first more left item right others,
      source.toList = ahead ++ first :: more ∧
      (step tags inner first more).lexemes = left ++ item :: right ∧
      token :: rest =
        Token.place (byteLength ahead + byteLength (spelling left)) (item :: right) ++ others ∧
      Lexed tags source (ahead ++ spelling (step tags inner first more).lexemes)
        (step tags inner first more).mode (step tags inner first more).rest others := by
  -- The induction is on the text that is left: the token is one of the first step or comes later.
  fun_induction lexemes tags mode chars generalizing before tokens with
  | case1 mode =>
    obtain ⟨_, rfl⟩ := lexed
    rw [lexemes] at suffix
    cases List.suffix_nil.mp suffix
  | case2 mode first more ih =>
    obtain ⟨others, rfl, later⟩ := lexed.advance
    obtain ⟨front, same⟩ := suffix
    rcases List.append_eq_append_iff.mp same with ⟨back, split, tail⟩ | ⟨back, rfl, tail⟩
    · cases back with
      | nil => exact ih later ⟨[], tail⟩
      | cons head back =>
        obtain ⟨left, right, parts, placed⟩ := exists_place_of_suffix ⟨front, split.symm⟩
        cases right with
        | nil => cases placed
        | cons item right =>
          refine ⟨before, mode, first, more, left, item, right, others, lexed.whole, parts, ?_,
            later⟩
          rw [tail, placed]
    · exact ih later ⟨back, tail.symm⟩

/-- **Where a template opens, the lexer reads a template**, and goes on behind it. -/
theorem exists_template_of_suffix (suffix : token :: rest <:+ Markup.tokenize tags source)
    (kind : token.kind = .templateOpen) :
    ∃ ahead inner next others, source.toList = ahead ++ (templateOpening ++ inner) ∧
      token.span.start = byteLength ahead ∧
      token :: rest = Token.place (byteLength ahead) (templateLexemes inner).1 ++ others ∧
      Lexed tags source (ahead ++ spelling (templateLexemes inner).1) next (templateLexemes inner).2
        others := by
  obtain ⟨ahead, stood, first, more, left, item, right, others, whole, parts, placed, lexed⟩ :=
    (Lexed.tokenize tags source).exists_step suffix
  have head : item.1 = .templateOpen := by
    obtain ⟨rfl, _⟩ := List.cons.inj placed
    exact kind
  obtain ⟨inner, next, same, reads⟩ := (step_advances tags stood first more).sort.template_of_mem
    (parts ▸ List.mem_append_right left List.mem_cons_self) head
  rw [reads] at parts lexed
  -- The opening mark is the first lexeme of the template, and the only one of its kind.
  obtain ⟨_, _, _, _, shape, _⟩ := templateLexemes_ends inner
  obtain rfl : left = [] := by
    cases left with
    | nil => rfl
    | cons lexeme left =>
      have inside : item ∈ left ++ item :: right := List.mem_append_right left List.mem_cons_self
      have tail : _ = left ++ item :: right := (List.cons.inj (shape.symm.trans parts)).2
      rw [← tail] at inside
      have listed := mem_templateKinds item inside
      rw [head] at listed
      exact absurd listed (by decide)
  refine ⟨ahead, inner, next, others, same ▸ whole, ?_, ?_, lexed⟩
  · obtain ⟨rfl, _⟩ := List.cons.inj placed
    rfl
  · rw [placed, ← List.nil_append (item :: right), ← parts]
    rfl

/-- **Behind the bracket of an open tag the lexer stands in front of the name of the tag**, which
decides how the body of the element will be read. -/
theorem exists_name_of_suffix (suffix : token :: rest <:+ Markup.tokenize tags source)
    (kind : token.kind = .openBracket) :
    ∃ ahead inner, source.toList = ahead ++ '<' :: inner ∧ startsName inner = true ∧
      token.span.stop = byteLength ahead + 1 ∧
      Lexed tags source (ahead ++ ['<']) (.tag (literalName? tags inner)) inner rest := by
  obtain ⟨ahead, stood, first, more, left, item, right, others, whole, parts, placed, lexed⟩ :=
    (Lexed.tokenize tags source).exists_step suffix
  have head : item.1 = .openBracket := by
    obtain ⟨rfl, _⟩ := List.cons.inj placed
    exact kind
  obtain ⟨inner, same, name, reads⟩ := (step_advances tags stood first more).sort.opening_of_mem
    (parts ▸ List.mem_append_right left List.mem_cons_self) head
  rw [reads] at parts lexed
  obtain ⟨rfl, rfl, rfl⟩ : left = [] ∧ item = (.openBracket, ['<']) ∧ right = [] := by
    cases left with
    | nil => exact ⟨rfl, (List.cons.inj parts).1.symm, (List.cons.inj parts).2.symm⟩
    | cons lexeme left => cases left <;> cases parts
  obtain ⟨rfl, rfl⟩ := List.cons.inj placed
  exact ⟨ahead, inner, same ▸ whole, name, rfl, lexed⟩

end Lexed

end PromptMarkup.Markup
