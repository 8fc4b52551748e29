/-
**The parser in step with the lexer.**

Inside a tag the lexer goes by the characters and the parser by the tokens, each with a rule of its
own for values, stray quotes and templates. They stay in step: where a value ends for the parser it
has ended for the lexer, and the bracket that closes a tag for the parser is the first one that the
lexer reads there. So behind it the lexer reads what follows a tag of that name.

* `InTag`, `InValue`: the lexer is in a tag, or in a quoted value of one;
* `InTag.first`, `InValue.first`: what can come first there;
* `Follows`: the parser takes tokens in a tag and stays in it;
* `readParts_follows`, `skipStray_follows`, `readAttribute_follows`: the parts of a tag;
* `Closes`, `readInside_closes`, `readOpenTag_closes`: the bracket that closes a tag.
-/

import PromptMarkup.Proofs.Markup.LexerSteps
import PromptMarkup.Proofs.Markup.TemplatePlaces

namespace PromptMarkup.Markup

open Text

variable {tags : LiteralTags} {source : String} {literal : Option (List Char)}
  {token : Token} {tokens middle rest : List Token}

/-! ### Places in a tag -/

/-- The lexer is in a tag, or between tags again behind an angle bracket that opens nothing. -/
def InTag (tags : LiteralTags) (source : String) (literal : Option (List Char))
    (tokens : List Token) : Prop :=
  ∃ before mode chars, (mode = .tag literal ∨ mode = .markup) ∧
    Lexed tags source before mode chars tokens

/-- The lexer is in a quoted value of a tag. -/
def InValue (tags : LiteralTags) (source : String) (mark : QuoteMark)
    (literal : Option (List Char)) (tokens : List Token) : Prop :=
  ∃ before chars, Lexed tags source before (.quoted mark literal) chars tokens

theorem InTag.nil : InTag tags source literal [] := by
  refine ⟨source.toList, .markup, [], .inr rfl, (List.append_nil _).symm, ?_⟩
  rw [lexemes]
  rfl

/-- The kinds of tokens with which a tag ends without its closing bracket. -/
def leavingKinds : List TokenKind :=
  [.selfCloseBracket, .openBracket, .closingOpenBracket, .commentOpen]

/-- The kinds of tokens with which a tag ends. -/
def endingKinds : List TokenKind := .closeBracket :: leavingKinds

/-- The parser takes tokens in a tag, none of which ends it, and stays in the tag. -/
structure Follows (tags : LiteralTags) (source : String) (literal : Option (List Char))
    (tokens rest : List Token) : Prop where
  taken : ∃ front, tokens = front ++ rest ∧ ∀ token ∈ front, token.kind ∉ endingKinds
  inside : InTag tags source literal rest

theorem InTag.follows (inside : InTag tags source literal tokens) :
    Follows tags source literal tokens tokens :=
  ⟨⟨[], rfl, List.forall_mem_nil _⟩, inside⟩

theorem Follows.trans (first : Follows tags source literal tokens middle)
    (second : Follows tags source literal middle rest) :
    Follows tags source literal tokens rest := by
  obtain ⟨⟨front, rfl, left⟩, _⟩ := first
  obtain ⟨⟨back, rfl, right⟩, inside⟩ := second
  exact ⟨⟨front ++ back, (List.append_assoc _ _ _).symm, List.forall_mem_append.mpr ⟨left, right⟩⟩,
    inside⟩

/-- Some tokens are taken, and others behind them. -/
theorem Follows.append {front : List Token} (others : ∀ token ∈ front, token.kind ∉ endingKinds)
    (behind : Follows tags source literal tokens rest) :
    Follows tags source literal (front ++ tokens) rest := by
  obtain ⟨⟨back, rfl, left⟩, inside⟩ := behind
  exact ⟨⟨front ++ back, (List.append_assoc _ _ _).symm, List.forall_mem_append.mpr ⟨others, left⟩⟩,
    inside⟩

theorem Follows.cons (other : token.kind ∉ endingKinds)
    (behind : Follows tags source literal tokens rest) :
    Follows tags source literal (token :: tokens) rest :=
  behind.append (List.forall_mem_singleton.mpr other)

/-- A bracket that closes a tag is the first one among some tokens, with nothing in front of it that
ends the tag, and behind it the lexer reads what follows the tag. -/
structure Closes (tags : LiteralTags) (source : String) (literal : Option (List Char))
    (before chars : List Char) (tokens : List Token) (closing : Token) (rest : List Token) :
    Prop where
  taken : ∃ front, tokens = front ++ closing :: rest ∧ ∀ token ∈ front, token.kind ∉ endingKinds
  kind : closing.kind = .closeBracket
  whole : source.toList = before ++ '>' :: chars
  span : closing.span = ⟨byteLength before, byteLength before + 1⟩
  lexed : Lexed tags source (before ++ ['>']) (literal.elim .markup .literal) chars rest

theorem Follows.closes {before chars : List Char} {closing : Token}
    (follows : Follows tags source literal tokens middle)
    (closes : Closes tags source literal before chars middle closing rest) :
    Closes tags source literal before chars tokens closing rest := by
  obtain ⟨⟨front, rfl, left⟩, _⟩ := follows
  obtain ⟨⟨back, rfl, right⟩, kind, whole, span, lexed⟩ := closes
  refine ⟨⟨front ++ back, ?_, List.forall_mem_append.mpr ⟨left, right⟩⟩, kind, whole, span, lexed⟩
  rw [List.append_assoc]

/-! ### Templates -/

theorem exists_kind_of_mem_place {offset : Nat} {lexemes : List Lexeme}
    (member : token ∈ Token.place offset lexemes) : ∃ item ∈ lexemes, item.1 = token.kind := by
  induction lexemes generalizing offset with
  | nil => cases member
  | cons lexeme later ih =>
    obtain ⟨kind, chars⟩ := lexeme
    rcases List.mem_cons.mp member with rfl | member
    · exact ⟨_, List.mem_cons_self, rfl⟩
    · obtain ⟨item, inside, same⟩ := ih member
      exact ⟨item, List.mem_cons_of_mem _ inside, same⟩

/-- The tokens of a template, and what is behind them. -/
theorem readTemplate_taken {before inner : List Char} {next : Mode} {others : List Token}
    (placed : token :: rest = Token.place (byteLength before) (templateLexemes inner).1 ++ others)
    (lexed : Lexed tags source (before ++ spelling (templateLexemes inner).1) next
      (templateLexemes inner).2 others) :
    token.kind = .templateOpen ∧ (readTemplate token rest).rest = others ∧
      ∃ front, token :: rest = front ++ others ∧
        ∀ token ∈ front, token.kind ∈ .templateOpen :: templateKinds := by
  have left := (readTemplate_lexed placed lexed).1
  obtain ⟨_, _, _, _, shape, _⟩ := templateLexemes_ends inner
  rw [shape] at placed
  refine ⟨?_, left, _, placed, fun token member => ?_⟩
  · obtain ⟨rfl, _⟩ := List.cons.inj placed
    rfl
  · obtain ⟨item, inside, same⟩ := exists_kind_of_mem_place member
    rw [← same]
    rcases List.mem_cons.mp inside with rfl | inside
    · exact List.mem_cons_self
    · exact List.mem_cons_of_mem _ (mem_templateKinds item inside)

theorem ne_of_mem_kinds {kind other : TokenKind} {kinds : List TokenKind} (member : kind ∈ kinds)
    (none : other ∉ kinds) : kind ≠ other := fun same => none (same ▸ member)

/-- No token of a template ends a tag. -/
theorem notMem_endingKinds_of_template {kind : TokenKind}
    (member : kind ∈ .templateOpen :: templateKinds) : kind ∉ endingKinds := by
  have apart : ∀ kind ∈ .templateOpen :: templateKinds, kind ∉ endingKinds := by decide
  exact apart kind member

theorem QuoteMark.notMem_endingKinds (mark : QuoteMark) : mark.kind ∉ endingKinds := by
  cases mark <;> decide

/-! ### What comes first -/

/-- The kinds of tokens that stand for themselves in a tag. -/
def wordKinds : List TokenKind := [.whitespace, .identifier, .textContent, .equals]

/-- What can come first in a tag. -/
inductive TagToken (tags : LiteralTags) (source : String) (literal : Option (List Char))
    (token : Token) (rest : List Token) : Prop
  | word : token.kind ∈ wordKinds → InTag tags source literal rest →
    TagToken tags source literal token rest
  | template : token.kind = .templateOpen →
      Follows tags source literal (token :: rest) (readTemplate token rest).rest →
      TagToken tags source literal token rest
  | quote (mark : QuoteMark) : token.kind = mark.kind → InValue tags source mark literal rest →
      TagToken tags source literal token rest
  | close (before chars : List Char) :
      Closes tags source literal before chars (token :: rest) token rest →
      TagToken tags source literal token rest
  | leave : token.kind ∈ leavingKinds → TagToken tags source literal token rest

theorem TagToken.of_template {before inner : List Char} {next : Mode} {others : List Token}
    (stands : next = .tag literal ∨ next = .markup)
    (placed : token :: rest = Token.place (byteLength before) (templateLexemes inner).1 ++ others)
    (lexed : Lexed tags source (before ++ spelling (templateLexemes inner).1) next
      (templateLexemes inner).2 others) : TagToken tags source literal token rest := by
  obtain ⟨kind, same, front, taken, kinds⟩ := readTemplate_taken placed lexed
  rw [← same] at taken lexed
  refine .template kind ⟨⟨front, taken, fun other member => ?_⟩, _, next, _, stands, lexed⟩
  exact notMem_endingKinds_of_template (kinds other member)

/-- What a step between tags reads can come first in a tag, behind an angle bracket that opens
nothing. -/
theorem BetweenTags.tagToken {before chars : List Char} {step : Step} {others : List Token}
    (between : BetweenTags tags chars step)
    (same : token :: rest = Token.place (byteLength before) step.lexemes ++ others)
    (later : Lexed tags source (before ++ spelling step.lexemes) step.mode step.rest others) :
    TagToken tags source literal token rest := by
  cases between with
  | comment inner =>
    obtain ⟨tail, shape⟩ :
        ∃ tail, (commentLexemes inner).1 = (.commentOpen, commentOpening) :: tail := by
      unfold commentLexemes
      simp only
      split
      · exact ⟨_, rfl⟩
      · exact ⟨_, rfl⟩
    rw [shape] at same
    obtain ⟨rfl, _⟩ := List.cons.inj same
    exact .leave (by simp [leavingKinds])
  | template inner => exact .of_template (.inr rfl) same later
  | closing | opening =>
    obtain ⟨rfl, _⟩ := List.cons.inj same
    exact .leave (by simp [leavingKinds])
  | text plain =>
    obtain ⟨rfl, rfl⟩ := List.cons.inj same
    refine .word ?_ ⟨_, .markup, _, .inr rfl, later⟩
    rcases plain with rfl | rfl <;> simp [wordKinds]

/-- There is something in front of the lexer where there are tokens. -/
theorem Lexed.exists_cons {before chars : List Char} {mode : Mode}
    (lexed : Lexed tags source before mode chars (token :: rest)) :
    ∃ first more others, chars = first :: more ∧
      token :: rest =
        Token.place (byteLength before) (step tags mode first more).lexemes ++ others ∧
      Lexed tags source (before ++ spelling (step tags mode first more).lexemes)
        (step tags mode first more).mode (step tags mode first more).rest others := by
  cases chars with
  | nil =>
    have none := lexed.tokens_eq
    rw [lexemes] at none
    cases none
  | cons first more =>
    obtain ⟨others, same, later⟩ := lexed.advance
    exact ⟨first, more, others, rfl, same, later⟩

/-- **What comes first in a tag.** -/
theorem InTag.first (inside : InTag tags source literal (token :: rest)) :
    TagToken tags source literal token rest := by
  obtain ⟨before, mode, chars, stands, lexed⟩ := inside
  have whole := lexed.whole
  obtain ⟨first, more, others, rfl, same, later⟩ := lexed.exists_cons
  have advances := step_advances tags mode first more
  generalize step tags mode first more = step at same later advances
  generalize first :: more = chars at whole advances
  rcases stands with rfl | rfl
  · cases advances with
    | bracket between => exact between.tagToken same later
    | word plain =>
      obtain ⟨rfl, rfl⟩ := List.cons.inj same
      refine .word ?_ ⟨_, _, _, .inl rfl, later⟩
      rcases plain with rfl | rfl | rfl <;> simp [wordKinds]
    | template inner => exact .of_template (.inl rfl) same later
    | selfClose =>
      obtain ⟨rfl, _⟩ := List.cons.inj same
      exact .leave (by simp [leavingKinds])
    | close chars =>
      obtain ⟨rfl, rfl⟩ := List.cons.inj same
      exact .close before chars
        ⟨⟨[], rfl, List.forall_mem_nil _⟩, rfl, whole, rfl, later⟩
    | equals =>
      obtain ⟨rfl, rfl⟩ := List.cons.inj same
      exact .word (by simp [wordKinds]) ⟨_, _, _, .inl rfl, later⟩
    | quote mark =>
      obtain ⟨rfl, rfl⟩ := List.cons.inj same
      exact .quote mark rfl ⟨_, _, later⟩
  · cases advances with
    | markup between => exact between.tagToken same later

/-- What can come first in a quoted value. -/
inductive ValueToken (tags : LiteralTags) (source : String) (mark : QuoteMark)
    (literal : Option (List Char)) (token : Token) (rest : List Token) : Prop
  | text : token.kind = .textContent → InValue tags source mark literal rest →
      ValueToken tags source mark literal token rest
  | template : token.kind = .templateOpen →
      (∃ front, token :: rest = front ++ (readTemplate token rest).rest ∧
        ∀ token ∈ front, token.kind ∈ .templateOpen :: templateKinds) →
      InValue tags source mark literal (readTemplate token rest).rest →
      ValueToken tags source mark literal token rest
  | quote : token.kind = mark.kind → InTag tags source literal rest →
      ValueToken tags source mark literal token rest

/-- **What comes first in a quoted value.** -/
theorem InValue.first {mark : QuoteMark}
    (inside : InValue tags source mark literal (token :: rest)) :
    ValueToken tags source mark literal token rest := by
  obtain ⟨before, chars, lexed⟩ := inside
  obtain ⟨first, more, others, rfl, same, later⟩ := lexed.exists_cons
  have advances := step_advances tags (.quoted mark literal) first more
  generalize step tags (.quoted mark literal) first more = step at same later advances
  generalize first :: more = chars at advances
  cases advances with
  | unquote =>
    obtain ⟨rfl, rfl⟩ := List.cons.inj same
    exact .quote rfl ⟨_, _, _, .inl rfl, later⟩
  | quotedTemplate inner =>
    obtain ⟨kind, left, taken⟩ := readTemplate_taken same later
    rw [← left] at taken later
    exact .template kind taken ⟨_, _, later⟩
  | quotedText =>
    obtain ⟨rfl, rfl⟩ := List.cons.inj same
    exact .text rfl ⟨_, _, later⟩

section First

theorem QuoteMark.kind_ne (mark : QuoteMark) {kind : TokenKind}
    (other : kind ∉ [TokenKind.doubleQuote, .singleQuote]) : mark.kind ≠ kind := by
  cases mark
  · exact fun same => other (same ▸ List.mem_cons_self)
  · exact fun same => other (same ▸ List.mem_cons_of_mem _ List.mem_cons_self)

/-- A word or a sign in a tag is taken by itself. -/
theorem InTag.word {kind : TokenKind} (inside : InTag tags source literal (token :: rest))
    (same : token.kind = kind) (listed : kind ∈ wordKinds) :
    Follows tags source literal (token :: rest) rest := by
  subst same
  have apart : ∀ kind ∈ wordKinds, kind ∉ endingKinds := by decide
  have other := apart token.kind listed
  cases inside.first with
  | word _ later => exact later.follows.cons other
  | template same => exact absurd same (ne_of_mem_kinds listed (by decide))
  | quote mark same => cases mark <;> exact absurd same (ne_of_mem_kinds listed (by decide))
  | close before chars closes => exact absurd (closes.kind ▸ List.mem_cons_self) other
  | leave leaving => exact absurd (List.mem_cons_of_mem _ leaving) other

/-- A quote in a tag opens a value. -/
theorem InTag.quote {mark : QuoteMark} (inside : InTag tags source literal (token :: rest))
    (kind : token.kind = mark.kind) : InValue tags source mark literal rest := by
  cases inside.first with
  | word listed => cases mark <;> exact absurd kind (ne_of_mem_kinds listed (by decide))
  | template same => exact absurd (kind.symm.trans same) (mark.kind_ne (by decide))
  | quote other same later =>
    obtain rfl : mark = other := by
      rw [kind] at same
      cases mark <;> cases other <;> first | rfl | cases same
    exact later
  | close before chars closes =>
    exact absurd (kind.symm.trans closes.kind) (mark.kind_ne (by decide))
  | leave listed => cases mark <;> exact absurd kind (ne_of_mem_kinds listed (by decide))

/-- A template in a tag is taken as a whole. -/
theorem InTag.template (inside : InTag tags source literal (token :: rest))
    (kind : token.kind = .templateOpen) :
    Follows tags source literal (token :: rest) (readTemplate token rest).rest := by
  cases inside.first with
  | word listed => exact absurd kind (ne_of_mem_kinds listed (by decide))
  | template _ follows => exact follows
  | quote mark same => exact absurd (same.symm.trans kind) (mark.kind_ne (by decide))
  | close before chars closes =>
    have same := closes.kind
    rw [kind] at same
    cases same
  | leave listed => exact absurd kind (ne_of_mem_kinds listed (by decide))

/-- A closing bracket in a tag closes it. -/
theorem InTag.close (inside : InTag tags source literal (token :: rest))
    (kind : token.kind = .closeBracket) :
    ∃ before chars, Closes tags source literal before chars (token :: rest) token rest := by
  cases inside.first with
  | word listed => exact absurd kind (ne_of_mem_kinds listed (by decide))
  | template same =>
    rw [kind] at same
    cases same
  | quote mark same => exact absurd (same.symm.trans kind) (mark.kind_ne (by decide))
  | close before chars closes => exact ⟨before, chars, closes⟩
  | leave listed => exact absurd kind (ne_of_mem_kinds listed (by decide))

end First

/-! ### Quoted values -/

/-- **A quoted value ends for the parser where it ends for the lexer.** -/
theorem readParts_follows (mark : QuoteMark) (stop : Nat)
    (inside : InValue tags source mark literal tokens) :
    Follows tags source literal tokens (readParts mark.kind stop tokens).rest := by
  generalize same : mark.kind = quote
  fun_induction readParts quote stop tokens with
  | case1 => exact InTag.nil.follows
  | case2 stop token rest closes =>
    have other : token.kind ∉ endingKinds := closes ▸ same ▸ mark.notMem_endingKinds
    cases inside.first with
    | text kind =>
      exact absurd (kind.symm.trans (closes.trans same.symm)).symm (mark.kind_ne (by decide))
    | template kind =>
      exact absurd (kind.symm.trans (closes.trans same.symm)).symm (mark.kind_ne (by decide))
    | quote _ later => exact later.follows.cons other
  | case3 stop token rest differs opens template others ih =>
    cases inside.first with
    | text kind =>
      rw [opens] at kind
      cases kind
    | template _ taken later =>
      obtain ⟨front, taken, kinds⟩ := taken
      rw [taken]
      exact (ih later).append fun other member =>
        notMem_endingKinds_of_template (kinds other member)
    | quote kind => exact absurd (kind.trans same) differs
  | case4 stop token rest differs plain text others ih =>
    have other : token.kind ∉ endingKinds := by
      rcases text with kind | kind <;> rw [kind] <;> decide
    cases inside.first with
    | text _ later => exact (ih later).cons other
    | template kind => exact absurd kind plain
    | quote kind => exact absurd (kind.trans same) differs
  | case5 stop token rest differs plain text =>
    cases inside.first with
    | text kind => exact absurd (.inl kind) text
    | template kind => exact absurd kind plain
    | quote kind => exact absurd (kind.trans same) differs

/-- A quoted value goes on to its quote, or to the end of the source. -/
theorem InValue.exists_quote {mark : QuoteMark} (inside : InValue tags source mark literal tokens) :
    ∃ front back, tokens = front ++ back ∧
      (∀ token ∈ front, token.kind ≠ mark.kind ∧ token.kind ∉ endingKinds) ∧
      (back = [] ∨ ∃ quote rest, back = quote :: rest ∧ quote.kind = mark.kind ∧
        InTag tags source literal rest) := by
  -- A template takes several tokens at once, so the induction is on their number.
  induction size : tokens.length using Nat.strong_induction_on generalizing tokens with
  | h count ih =>
    cases tokens with
    | nil => exact ⟨[], [], rfl, List.forall_mem_nil _, .inl rfl⟩
    | cons token rest =>
      rw [List.length_cons] at size
      cases inside.first with
      | text kind later =>
        obtain ⟨front, back, rfl, kinds, ends⟩ := ih _ (size ▸ Nat.lt_succ_self _) later rfl
        refine ⟨token :: front, back, rfl, List.forall_mem_cons.mpr ⟨⟨?_, ?_⟩, kinds⟩, ends⟩
        · exact fun same => mark.kind_ne (by decide) (same.symm.trans kind)
        · rw [kind]
          decide
      | template _ taken later =>
        obtain ⟨first, taken, templates⟩ := taken
        have shorter := readTemplate_length_le token rest
        obtain ⟨front, back, split, kinds, ends⟩ := ih _ (by omega) later rfl
        refine ⟨first ++ front, back, ?_,
          List.forall_mem_append.mpr ⟨fun other member => ?_, kinds⟩, ends⟩
        · rw [taken, split, List.append_assoc]
        · refine ⟨fun same => ?_, notMem_endingKinds_of_template (templates other member)⟩
          cases mark <;> exact absurd same (ne_of_mem_kinds (templates other member) (by decide))
      | quote kind later =>
        exact ⟨[], token :: rest, rfl, List.forall_mem_nil _, .inr ⟨token, rest, rfl, kind, later⟩⟩

/-- **Behind a stray quote the parser skips what the lexer reads as a value.** -/
theorem skipStray_follows {mark : QuoteMark} (inside : InValue tags source mark literal tokens) :
    Follows tags source literal tokens (skipStray mark.kind tokens) := by
  obtain ⟨front, back, rfl, kinds, ends⟩ := inside.exists_quote
  have quote : mark.kind = .doubleQuote ∨ mark.kind = .singleQuote := by
    cases mark
    · exact .inl rfl
    · exact .inr rfl
  have skipped : ∀ token ∈ front, decide (token.kind ≠ mark.kind) = true := fun token member =>
    decide_eq_true (kinds token member).1
  unfold skipStray
  rw [if_pos quote, List.dropWhile_append_of_pos skipped]
  refine Follows.append (fun token member => (kinds token member).2) ?_
  rcases ends with rfl | ⟨token, rest, rfl, kind, later⟩
  · exact InTag.nil.follows
  · have stops : (decide (token.kind ≠ mark.kind)) = false := decide_eq_false (not_not_intro kind)
    rw [List.dropWhile_cons, stops, if_neg Bool.false_ne_true, List.drop_one, List.tail_cons]
    exact later.follows.cons (kind ▸ mark.notMem_endingKinds)

/-- A stray token is taken, and with a quote what stands behind it up to the next one. -/
theorem InTag.stray {kind : TokenKind} (inside : InTag tags source literal (token :: rest))
    (same : token.kind = kind)
    (listed : kind ∈ [TokenKind.textContent, .equals, .doubleQuote, .singleQuote]) :
    Follows tags source literal (token :: rest) (skipStray token.kind rest) := by
  have quoted : ∀ mark : QuoteMark, kind = mark.kind →
      Follows tags source literal (token :: rest) (skipStray token.kind rest) := by
    rintro mark rfl
    rw [same]
    exact (skipStray_follows (inside.quote same)).cons (same ▸ mark.notMem_endingKinds)
  simp only [List.mem_cons, List.not_mem_nil, or_false] at listed
  rcases listed with rfl | rfl | rfl | rfl
  · rw [same]
    exact inside.word same (by decide)
  · rw [same]
    exact inside.word same (by decide)
  · exact quoted .double rfl
  · exact quoted .single rfl

/-! ### Attributes -/

theorem rest_readQuoted (key : String) (opening : Token) (tokens : List Token) :
    (readQuoted key opening tokens).rest =
      (readParts opening.kind opening.span.stop tokens).rest := by
  unfold readQuoted
  simp only
  split
  · rfl
  · split
    · split <;> rfl
    · rfl

theorem InTag.readQuoted_follows (mark : QuoteMark) (key : String)
    (inside : InTag tags source literal (token :: rest)) (kind : token.kind = mark.kind) :
    Follows tags source literal (token :: rest) (readQuoted key token rest).rest := by
  rw [rest_readQuoted, kind]
  exact (readParts_follows mark _ (inside.quote kind)).cons (kind ▸ mark.notMem_endingKinds)

theorem InTag.skipBlank (stop : Nat) (inside : InTag tags source literal tokens) :
    Follows tags source literal tokens (skipKind .whitespace stop tokens).2 := by
  unfold skipKind
  split
  · exact inside.follows
  next token rest =>
    split
    next kind => exact inside.word kind (by decide)
    next => exact inside.follows

theorem takeKind_of_eq {kind : TokenKind} (same : token.kind = kind) :
    takeKind kind (token :: rest) = (some token, rest) := if_pos same

theorem takeKind_eq_some {kind : TokenKind} (taken : takeKind kind tokens = (some token, rest)) :
    tokens = token :: rest ∧ token.kind = kind := by
  unfold takeKind at taken
  split at taken
  · cases taken
  next other others =>
    split at taken
    next same =>
      cases taken
      exact ⟨rfl, same⟩
    next => cases taken

theorem readValue_follows (key : String) (named : Span)
    (inside : InTag tags source literal tokens) :
    Follows tags source literal tokens (readValue key named tokens).rest := by
  unfold readValue
  split
  · exact inside.follows
  next token rest =>
    split
    next kind => exact inside.readQuoted_follows .double key kind
    next kind => exact inside.readQuoted_follows .single key kind
    next kind => exact inside.template kind
    next kind => exact inside.word kind (by decide)
    next kind => exact inside.word kind (by decide)
    next => exact inside.follows

theorem readAttribute_follows (key : Token) (inside : InTag tags source literal tokens) :
    Follows tags source literal tokens (readAttribute key tokens).rest := by
  have blank := inside.skipBlank 0
  unfold readAttribute
  split
  next => exact inside.follows
  next equals after found =>
    obtain ⟨same, kind⟩ := takeKind_eq_some found
    rw [same] at blank
    have sign := blank.trans (blank.inside.word kind (by decide))
    have next := sign.trans (sign.inside.skipBlank 0)
    exact next.trans (readValue_follows _ _ next.inside)

/-! ### Tags -/

/-- How a tag ends for the parser at some tokens: with its bracket, or with another token that ends
it, or at the end of the source. -/
inductive EndsTag (tokens rest : List Token) : Terminator → Prop
  | close (token : Token) : tokens = token :: rest → token.kind = .closeBracket →
    EndsTag tokens rest .close
  | leave {terminator : Terminator} : terminator ≠ .close →
    (∀ token ∈ tokens.head?, token.kind ∈ leavingKinds) → EndsTag tokens rest terminator

/-- **A tag ends for the parser where it ends for the lexer**, whatever stands in the tag. -/
theorem readInside_endsTag (name : String) (stop : Nat) (inside : InTag tags source literal tokens) :
    ∃ middle, Follows tags source literal tokens middle ∧
      EndsTag middle (readInside name stop tokens).rest
        (readInside name stop tokens).node.terminator := by
  have after : ∀ {tokens middle rest : List Token} {terminator},
      Follows tags source literal tokens middle →
      (∃ last, Follows tags source literal middle last ∧ EndsTag last rest terminator) →
      ∃ last, Follows tags source literal tokens last ∧ EndsTag last rest terminator := by
    rintro tokens middle rest terminator follows ⟨last, behind, ends⟩
    exact ⟨last, follows.trans behind, ends⟩
  fun_induction readInside name stop tokens with
  | case1 => exact ⟨[], inside.follows, .leave Terminator.noConfusion fun _ absurd => by cases absurd⟩
  | case2 stop token rest kind ih =>
    have taken := inside.word kind (by decide)
    exact after taken (ih taken.inside)
  | case3 stop token rest kind first others ih =>
    have taken := inside.word kind (by decide)
    have follows := taken.trans (readAttribute_follows token taken.inside)
    exact after follows (ih follows.inside)
  | case4 stop token rest kind => exact ⟨token :: rest, inside.follows, .close token rfl kind⟩
  | case5 stop token rest kind =>
    refine ⟨token :: rest, inside.follows, .leave Terminator.noConfusion fun other member => ?_⟩
    rw [← Option.some.inj member, kind]
    decide
  | case6 stop token rest kind template others ih =>
    have follows := inside.template kind
    exact after follows (ih follows.inside)
  | case7 stop token rest kind others ih | case8 stop token rest kind others ih
  | case9 stop token rest kind others ih | case10 stop token rest kind others ih =>
    have follows := inside.stray kind (by decide)
    exact after follows (ih follows.inside)
  | case11 stop token rest =>
    refine ⟨token :: rest, inside.follows, .leave Terminator.noConfusion fun other member => ?_⟩
    obtain rfl := Option.some.inj member
    cases inside.first with
    | word listed =>
      simp only [wordKinds, List.mem_cons, List.not_mem_nil, or_false] at listed
      tauto
    | template kind => tauto
    | quote mark kind => cases mark <;> tauto
    | close before chars closes => exact absurd closes.kind (by tauto)
    | leave listed => exact listed

/-- **The bracket that closes a tag for the parser closes it for the lexer.** -/
theorem readInside_closes (name : String) (stop : Nat) (inside : InTag tags source literal tokens)
    (closed : (readInside name stop tokens).node.terminator = .close) :
    ∃ before chars closing, Closes tags source literal before chars tokens closing
      (readInside name stop tokens).rest := by
  obtain ⟨middle, follows, ends⟩ := readInside_endsTag name stop inside
  rw [closed] at ends
  cases ends with
  | close token same kind =>
    subst same
    obtain ⟨before, chars, closes⟩ := follows.inside.close kind
    exact ⟨before, chars, token, follows.closes closes⟩
  | leave other => exact absurd rfl other

theorem isNameContinue_of_isNameStart {char : Char} (start : isNameStart char = true) :
    isNameContinue char = true := by
  simp only [isNameStart, Bool.or_eq_true] at start
  simp only [isNameContinue, Char.isAlphanum, Bool.or_eq_true]
  tauto

/-- Behind the name of a tag the lexer is in the tag. -/
theorem exists_follows_name {before inner : List Char} (name : startsName inner = true)
    (lexed : Lexed tags source before (.tag literal) inner rest) :
    ∃ token others, rest = token :: others ∧ token.kind = .identifier ∧
      token.text = String.ofList (inner.takeWhile isNameContinue) ∧
      InTag tags source literal others := by
  cases inner with
  | nil => cases name
  | cons first more =>
    have start : isNameStart first = true := name
    have here : step tags (.tag literal) first more =
        ⟨[(.identifier, first :: (cutWhile isNameContinue more).1)], .tag literal,
          (cutWhile isNameContinue more).2⟩ := by
      show tagStep tags literal first more = _
      unfold tagStep
      rw [isMarkupBlank_of_isNameStart start, if_neg Bool.false_ne_true, if_pos start]
    obtain ⟨others, rfl, later⟩ := lexed.advance
    rw [here] at later ⊢
    refine ⟨_, others, rfl, rfl, ?_, _, _, _, .inl rfl, later⟩
    rw [List.takeWhile_cons, isNameContinue_of_isNameStart start, if_pos rfl]
    rfl

/-- The name that the lexer keeps in a tag with a name. -/
def LiteralTags.kept (tags : LiteralTags) (name : String) : Option (List Char) :=
  if tags.contains name then some name.toList else none

/-- **A tag is closed for the parser where it is closed for the lexer**, which knows the element by
the name that the parser reads: it goes on in the body of a literal element of that name, or between
tags. -/
theorem readOpenTag_closes {bracket : Token} (suffix : bracket :: rest <:+ tokenize tags source)
    (kind : bracket.kind = .openBracket)
    (closed : (readOpenTag bracket rest).node.2 = .close) :
    isName (readOpenTag bracket rest).node.1.name.toList = true ∧
      ∃ before chars closing,
        Closes tags source (tags.kept (readOpenTag bracket rest).node.1.name) before chars rest
          closing (readOpenTag bracket rest).rest := by
  obtain ⟨ahead, inner, _, name, _, lexed⟩ := exists_name_of_suffix suffix kind
  obtain ⟨token, others, rfl, identifier, text, inside⟩ := exists_follows_name name lexed
  unfold readOpenTag at closed ⊢
  rw [takeKind_of_eq identifier] at closed ⊢
  simp only [Option.elim_some] at closed ⊢
  rw [text, String.toList_ofList]
  refine ⟨Bool.and_eq_true_iff.mpr ⟨?_, List.all_takeWhile⟩, ?_⟩
  · cases inner with
    | nil => cases name
    | cons first more =>
      rw [List.takeWhile_cons, isNameContinue_of_isNameStart name, if_pos rfl]
      exact name
  · have same : literalName? tags inner =
        tags.kept (String.ofList (inner.takeWhile isNameContinue)) := by
      rw [LiteralTags.kept, String.toList_ofList]
      rfl
    rw [same] at inside
    rw [text] at closed
    have other : token.kind ∉ endingKinds := by
      rw [identifier]
      decide
    obtain ⟨before, chars, closing, closes⟩ := readInside_closes _ _ inside closed
    exact ⟨before, chars, closing, (inside.follows.cons other).closes closes⟩

end PromptMarkup.Markup
