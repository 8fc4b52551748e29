/-
**The lexemes of what is written for outlines.**

Every part of an outline is read as lexemes of its own, whatever is written behind it.

* `templateWords`, `commentWords`, `OutlineTag.words`: the lexemes of templates, comments and tags;
* `templateLexemes_of_isExpression`, `commentLexemes_of_isCommentText`, `lexemes_tag`: what is
  written for them is read as those;
* `Outline.words`, `lexemes_print`: the same for outlines in a row.
-/

import PromptMarkup.Proofs.Markup.LexerSteps

namespace PromptMarkup.Markup

open Text

variable {tags : LiteralTags}

/-! ### Templates and comments -/

theorem IsExpression.trimmed {text : String} (expression : IsExpression text) :
    IsTrimmed text.toList ∧ Passes text.toList := by
  have parses := expression.parses
  cases parsed : Expr.parse text with
  | error fault =>
    rw [parsed] at parses
    cases parses
  | ok expr =>
    have ends : ∀ end? : Option Char, end?.any isMarkupBlank = false →
        ∀ char ∈ end?, isMarkupBlank char = false := by
      intro end? none char same
      rw [same] at none
      exact none
    exact ⟨⟨toList_ne_nil_of_parse parsed, ends _ expression.first, ends _ expression.last⟩,
      passes_of_parse parsed⟩

/-- The lexemes of a template. -/
def templateWords (expression : String) : List Lexeme :=
  [(.templateOpen, templateOpening), (.textContent, expression.toList),
    (.templateClose, templateClosing)]

theorem templateLexemes_of_isExpression {text : String} (expression : IsExpression text)
    (rest : List Char) :
    templateLexemes (text.toList ++ (templateClosing ++ rest)) = (templateWords text, rest) := by
  obtain ⟨trimmed, passes⟩ := expression.trimmed
  have none : ∀ char ∈ ([] : List Char), isMarkupBlank char = true := fun _ member => by
    cases member
  exact templateLexemes_expression trimmed ((List.append_nil _).symm ▸ passes) none none rest

/-- The lexemes of a comment. -/
def commentWords (content : String) : List Lexeme :=
  (.commentOpen, commentOpening) :: lexeme .textContent content.toList
    ++ [(.commentClose, commentClosing)]

/-- No end of a comment makes up the closing mark together with the one behind it. -/
theorem isPrefixOf_commentClosing {part rest : List Char} (nonempty : part ≠ [])
    (unclosed : ¬ commentClosing <+: part) :
    commentClosing.isPrefixOf (part ++ (commentClosing ++ rest)) = false := by
  by_contra begins
  rw [Bool.not_eq_false, List.isPrefixOf_iff_prefix] at begins
  obtain ⟨more, whole⟩ := begins
  rcases part with _ | ⟨first, _ | ⟨second, _ | ⟨third, others⟩⟩⟩
  · exact nonempty rfl
  · simp [commentClosing] at whole
  · simp [commentClosing] at whole
  · simp only [commentClosing, List.cons_append, List.nil_append, List.cons.injEq] at whole
    obtain ⟨rfl, rfl, rfl, _⟩ := whole
    exact unclosed ⟨others, rfl⟩

theorem commentLexemes_of_isCommentText {content : String} (text : IsCommentText content)
    (rest : List Char) :
    commentLexemes (content.toList ++ (commentClosing ++ rest)) = (commentWords content, rest) := by
  have cut : cutWhere commentClosing.isPrefixOf (content.toList ++ (commentClosing ++ rest)) =
      (content.toList, commentClosing ++ rest) := by
    refine cutWhere_of_none (fun part suffix nonempty => ?_) (.inr rfl)
    exact isPrefixOf_commentClosing nonempty fun begins =>
      text.unclosed (begins.isInfix.trans suffix.isInfix)
  unfold commentLexemes
  simp only [cut, text.plain, dropPrefix?_append]
  rfl

/-! ### Tags -/

/-- The lexemes of a quoted text. -/
def quotedWords (text : String) : List Lexeme :=
  (.doubleQuote, ['"']) :: lexeme .textContent text.toList ++ [(.doubleQuote, ['"'])]

/-- The lexemes of a value with the equals sign in front of it. -/
def OutlineValue.words : OutlineValue → List Lexeme
  | bare => []
  | quoted text => (.equals, ['=']) :: quotedWords text
  | template expression => (.equals, ['=']) :: templateWords expression

/-- The lexemes of an attribute with the space in front of it. -/
def OutlinePair.words (pair : OutlinePair) : List Lexeme :=
  (.whitespace, [' ']) :: (.identifier, pair.key.toList) :: pair.value.words

/-- The lexemes of an open tag up to its closing bracket. -/
def OutlineTag.words (tag : OutlineTag) : List Lexeme :=
  (.openBracket, ['<']) :: (.identifier, tag.name.toList) :: tag.pairs.flatMap OutlinePair.words

/-- No end of a value makes up the mark of a template together with the quote behind it. -/
theorem isPrefixOf_templateOpening {part rest : List Char} (nonempty : part ≠ [])
    (plain : ¬ templateOpening <+: part) :
    templateOpening.isPrefixOf (part ++ '"' :: rest) = false := by
  by_contra begins
  rw [Bool.not_eq_false, List.isPrefixOf_iff_prefix] at begins
  obtain ⟨more, whole⟩ := begins
  rcases part with _ | ⟨first, _ | ⟨second, others⟩⟩
  · exact nonempty rfl
  · simp [templateOpening] at whole
  · simp only [templateOpening, List.cons_append, List.nil_append, List.cons.injEq] at whole
    obtain ⟨rfl, rfl, _⟩ := whole
    exact plain ⟨others, rfl⟩

/-- A quoted value without quotes and templates in it is one text. -/
theorem lexemes_quoted {literal : Option (List Char)} {text rest : List Char}
    (free : '"' ∉ text) (plain : ¬ templateOpening <:+: text) :
    lexemes tags (.quoted .double literal) (text ++ '"' :: rest) =
      lexeme .textContent text
        ++ (.doubleQuote, ['"']) :: lexemes tags (.tag literal) rest := by
  cases text with
  | nil => exact lexemes_closingQuote rest
  | cons first others =>
    have other : first ≠ '"' := fun same => free (same ▸ List.mem_cons_self)
    have template : templateOpening.isPrefixOf (first :: (others ++ '"' :: rest)) = false :=
      isPrefixOf_templateOpening (List.cons_ne_nil first others) fun begins =>
        plain begins.isInfix
    have here : step tags (.quoted .double literal) first (others ++ '"' :: rest) =
        ⟨[(.textContent, first :: others)], .quoted .double literal, '"' :: rest⟩ := by
      show quotedStep .double literal first _ = _
      unfold quotedStep
      rw [if_neg (show first ≠ QuoteMark.double.char from other), dropPrefix?_eq_none template,
        cutWhere_of_none (fun part suffix nonempty => ?_) (.inr rfl)]
      have inside := suffix.trans (List.suffix_cons first others)
      have unopened : templateOpening.isPrefixOf (part ++ '"' :: rest) = false :=
        isPrefixOf_templateOpening nonempty fun begins =>
          plain (begins.isInfix.trans inside.isInfix)
      obtain ⟨letter, letters, rfl⟩ := List.exists_cons_of_ne_nil nonempty
      have quote : letter ≠ '"' := fun same => free (same ▸ inside.mem List.mem_cons_self)
      rw [unopened]
      simp [QuoteMark.char, quote]
    rw [List.cons_append, lexemes_one here, lexemes_closingQuote]
    rfl

/-- An attribute is read as its own lexemes. -/
theorem lexemes_pair {pair : OutlinePair} (proper : pair.IsGrammatical) {rest : List Char}
    (ends : EndsName rest) :
    lexemes tags (.tag none) (pair.print ++ rest) =
      pair.words ++ lexemes tags (.tag none) rest := by
  obtain ⟨key, value⟩ := pair
  obtain ⟨name, written⟩ := proper
  simp only at name
  have whole : OutlinePair.print ⟨key, value⟩ ++ rest =
      ' ' :: (key.toList ++ (value.print ++ rest)) := by
    simp [OutlinePair.print]
  have equals : ∀ more, EndsName ('=' :: more) := fun more char first => by
    obtain rfl := Option.some.inj first
    rfl
  rw [whole, lexemes_space (startsName_append name _)]
  cases value with
  | bare => exact congrArg (_ :: ·) (lexemes_name name ends)
  | quoted text =>
    have inner : OutlineValue.print (.quoted text) ++ rest =
        '=' :: '"' :: (text.toList ++ '"' :: rest) := by simp [OutlineValue.print]
    rw [inner, lexemes_name name (equals _), lexemes_equals, lexemes_openingQuote,
      lexemes_quoted written.1 written.2.1]
    simp [OutlinePair.words, OutlineValue.words, quotedWords]
  | template expression =>
    have inner : OutlineValue.print (.template expression) ++ rest =
        '=' :: (templateOpening ++ (expression.toList ++ (templateClosing ++ rest))) := by
      simp [OutlineValue.print, printTemplate]
    rw [inner, lexemes_name name (equals _), lexemes_equals, lexemes_templateValue,
      templateLexemes_of_isExpression written]
    rfl

theorem endsName_pairs (pairs : List OutlinePair) {rest : List Char} (ends : EndsName rest) :
    EndsName (pairs.flatMap OutlinePair.print ++ rest) := by
  cases pairs with
  | nil => exact ends
  | cons pair pairs =>
    intro char first
    obtain rfl := Option.some.inj first
    rfl

theorem lexemes_pairs {pairs : List OutlinePair} (proper : ∀ pair ∈ pairs, pair.IsGrammatical)
    {rest : List Char} (ends : EndsName rest) :
    lexemes tags (.tag none) (pairs.flatMap OutlinePair.print ++ rest) =
      pairs.flatMap OutlinePair.words ++ lexemes tags (.tag none) rest := by
  induction pairs with
  | nil => rfl
  | cons pair pairs ih =>
    obtain ⟨here, later⟩ := List.forall_mem_cons.mp proper
    rw [List.flatMap_cons, List.append_assoc, lexemes_pair here (endsName_pairs pairs ends),
      ih later, List.flatMap_cons, List.append_assoc]

/-- **An open tag is read up to its closing bracket**, in the mode of a tag that is not literal. -/
theorem lexemes_tag {tag : OutlineTag} (proper : tag.IsGrammatical tags) {rest : List Char}
    (ends : EndsName rest) :
    lexemes tags .markup (tag.print ++ rest) = tag.words ++ lexemes tags (.tag none) rest := by
  have whole : tag.print ++ rest =
      '<' :: (tag.name.toList ++ (tag.pairs.flatMap OutlinePair.print ++ rest)) := by
    simp [OutlineTag.print]
  have next : EndsName (tag.pairs.flatMap OutlinePair.print ++ rest) := endsName_pairs _ ends
  obtain ⟨_, all⟩ := Bool.and_eq_true_iff.mp proper.name
  have name : (tag.name.toList ++ (tag.pairs.flatMap OutlinePair.print ++ rest)).takeWhile
      isNameContinue = tag.name.toList :=
    congrArg Prod.fst (cutWhile_of_all _ (List.all_eq_true.mp all) next)
  have plain : literalName? tags
      (tag.name.toList ++ (tag.pairs.flatMap OutlinePair.print ++ rest)) = none := by
    unfold literalName?
    simp only [name, String.ofList_toList, proper.plain]
    rfl
  rw [whole, lexemes_openingBracket (startsName_append proper.name _), plain,
    lexemes_name proper.name next, lexemes_pairs proper.pairs ends]
  rfl

/-! ### Outlines -/

/-- The lexemes of some outlines in a row. -/
def Outline.words (tags : LiteralTags) : List Outline → List Lexeme
  | [] => []
  | .text value :: rest => Markup.lexemes tags .markup value.toList ++ words tags rest
  | .template expression :: rest => templateWords expression ++ words tags rest
  | .comment content :: rest => commentWords content ++ words tags rest
  | .single tag :: rest => tag.words ++ (.selfCloseBracket, ['/', '>']) :: words tags rest
  | .element tag children :: rest =>
    tag.words ++ (.closeBracket, ['>']) :: (words tags children
      ++ (.closingOpenBracket, ['<', '/']) :: (.identifier, tag.name.toList)
        :: (.closeBracket, ['>']) :: words tags rest)

theorem endsText_tag {tag : OutlineTag} (proper : tag.IsGrammatical tags) (rest : List Char) :
    EndsText (tag.print ++ rest) := by
  have name := startsName_append proper.name (tag.pairs.flatMap OutlinePair.print ++ rest)
  have begins := beginsMarkup_iff.mpr (begins_of_tag ['<'] Begins.opening name)
  refine .inr ?_
  simpa [OutlineTag.print] using begins

/-- A text ends in front of outlines that do not start with a text. -/
theorem Outline.endsText {all : List Outline} (proper : IsGrammatical tags all)
    (start : startsText all = false) {rest : List Char} (ends : EndsText rest) :
    EndsText (print all ++ rest) := by
  match all with
  | [] =>
    rw [print]
    exact ends
  | .text value :: others => cases start
  | .template expression :: others =>
    rw [print]
    exact .inr rfl
  | .comment content :: others =>
    rw [print]
    exact .inr rfl
  | .single tag :: others =>
    rw [IsGrammatical] at proper
    rw [print, List.append_assoc]
    exact endsText_tag proper.1 _
  | .element tag children :: others =>
    rw [IsGrammatical] at proper
    rw [print, List.append_assoc]
    exact endsText_tag proper.1 _

/-- **What is written for outlines is read as their lexemes.** -/
theorem lexemes_print {all : List Outline} (proper : Outline.IsGrammatical tags all)
    {rest : List Char} (ends : EndsText rest) :
    lexemes tags .markup (Outline.print all ++ rest) =
      Outline.words tags all ++ lexemes tags .markup rest := by
  induction all using Outline.print.induct generalizing rest with
  | case1 =>
    rw [Outline.print, Outline.words]
    rfl
  | case2 value others ih =>
    rw [Outline.IsGrammatical] at proper
    obtain ⟨text, start, later⟩ := proper
    have plain : IsPlain value.toList := ⟨text.plain, text.last⟩
    rw [Outline.print, List.append_assoc,
      (lexemes_text plain (Outline.endsText later start ends)).1, ih later ends, Outline.words,
      List.append_assoc]
  | case3 expression others ih =>
    rw [Outline.IsGrammatical] at proper
    obtain ⟨here, later⟩ := proper
    have whole : Outline.print (.template expression :: others) ++ rest = templateOpening ++
        (expression.toList ++ (templateClosing ++ (Outline.print others ++ rest))) := by
      simp [Outline.print, printTemplate]
    rw [whole, lexemes_template, templateLexemes_of_isExpression here, ih later ends,
      Outline.words, List.append_assoc]
  | case4 content others ih =>
    rw [Outline.IsGrammatical] at proper
    obtain ⟨here, later⟩ := proper
    have whole : Outline.print (.comment content :: others) ++ rest = commentOpening ++
        (content.toList ++ (commentClosing ++ (Outline.print others ++ rest))) := by
      simp [Outline.print]
    rw [whole, lexemes_comment, commentLexemes_of_isCommentText here, ih later ends,
      Outline.words, List.append_assoc]
  | case5 tag others ih =>
    rw [Outline.IsGrammatical] at proper
    obtain ⟨here, later⟩ := proper
    have whole : Outline.print (.single tag :: others) ++ rest =
        tag.print ++ '/' :: '>' :: (Outline.print others ++ rest) := by simp [Outline.print]
    rw [whole, lexemes_tag here fun char first => ?_, lexemes_selfCloseBracket, ih later ends,
      Outline.words, List.append_assoc, List.cons_append]
    obtain rfl := Option.some.inj first
    rfl
  | case6 tag children others inner ih =>
    rw [Outline.IsGrammatical] at proper
    obtain ⟨here, inside, later⟩ := proper
    have bracket : ∀ more, EndsName ('>' :: more) := fun more char first => by
      obtain rfl := Option.some.inj first
      rfl
    have whole : Outline.print (.element tag children :: others) ++ rest =
        tag.print ++ '>' :: (Outline.print children ++ '<' :: '/' ::
          (tag.name.toList ++ '>' :: (Outline.print others ++ rest))) := by
      simp [Outline.print]
    have name := startsName_append here.name ('>' :: (Outline.print others ++ rest))
    have closing : EndsText ('<' :: '/' ::
        (tag.name.toList ++ '>' :: (Outline.print others ++ rest))) :=
      .inr (beginsMarkup_iff.mpr (begins_of_tag ['<', '/'] Begins.closing name))
    rw [whole, lexemes_tag here (bracket _), lexemes_closeBracket, inner inside closing,
      lexemes_closingBracket name, lexemes_name here.name (bracket _), lexemes_closeBracket,
      ih later ends]
    simp [Outline.words]

end PromptMarkup.Markup
