/-
**Where a template with an expression ends.**

A template is closed by the first mark that the lexer does not take for a part of its text. When the
text is an expression, that is the mark behind it: in markup, in a tag and in a quoted value the
lexer reads the expression without the blanks around it as one text, and goes on behind the mark.
The parser makes a template of just that text.

* `exists_trimmed`: a text is what trimming leaves of it, with blanks around that;
* `lexemes_templateOpening`: an opening mark outside of literal bodies is that of a template;
* `template_of_expression`: the lexemes and the node of a template with an expression.
-/

import Mathlib
import PromptMarkup.Proofs.Markup.LexerSteps
import PromptMarkup.Proofs.Markup.NodeOrigins
import PromptMarkup.Proofs.Markup.TemplatePlaces

namespace PromptMarkup.Markup

open Text

/-! ### Trimmed texts -/

/-- What is trimmed off the end of a text is blank, and no blank is left there. -/
theorem exists_trimEnd (chars : List Char) :
    ∃ trailing, AreBlank trailing ∧ chars = trimEndBy isMarkupBlank chars ++ trailing ∧
      ∀ char ∈ (trimEndBy isMarkupBlank chars).getLast?, isMarkupBlank char = false := by
  refine ⟨(chars.reverse.takeWhile isMarkupBlank).reverse, ?_, ?_, ?_⟩
  · intro char member
    exact List.mem_takeWhile_imp (List.mem_reverse.mp member)
  · rw [trimEndBy, ← List.reverse_append, List.takeWhile_append_dropWhile, List.reverse_reverse]
  · intro char last
    rw [trimEndBy, List.getLast?_reverse] at last
    exact head?_dropWhile isMarkupBlank chars.reverse char last

/-- **A text that is not blank is what trimming leaves of it, with blanks around that.** -/
theorem exists_trimmed {chars : List Char} (plain : ∃ char ∈ chars, isMarkupBlank char = false) :
    ∃ leading trailing, AreBlank leading ∧ AreBlank trailing ∧
      chars = leading ++ (trimMarkup chars ++ trailing) ∧ IsTrimmed (trimMarkup chars) := by
  have leading : AreBlank (chars.takeWhile isMarkupBlank) := fun _ => List.mem_takeWhile_imp
  obtain ⟨trailing, blank, behind, last⟩ := exists_trimEnd (chars.dropWhile isMarkupBlank)
  have whole : chars = chars.takeWhile isMarkupBlank ++ (trimMarkup chars ++ trailing) := by
    rw [trimMarkup, trimStartBy, ← behind, List.takeWhile_append_dropWhile]
  have nonempty : trimMarkup chars ≠ [] := by
    intro none
    obtain ⟨char, member, other⟩ := plain
    rw [whole, none, List.nil_append] at member
    have same := leading.append blank char member
    rw [other] at same
    cases same
  refine ⟨_, trailing, leading, blank, whole, nonempty, fun char first => ?_, last⟩
  refine head?_dropWhile isMarkupBlank chars char ?_
  have here : (trimEndBy isMarkupBlank (chars.dropWhile isMarkupBlank)).head? = some char := first
  rw [behind, List.head?_append, here]
  rfl

/-! ### Lexemes -/

theorem lexemes_quotedTemplate {tags : LiteralTags} (mark : QuoteMark)
    (literal : Option (List Char)) (rest : List Char) :
    lexemes tags (.quoted mark literal) (templateOpening ++ rest) =
      (templateLexemes rest).1 ++ lexemes tags (.quoted mark literal) (templateLexemes rest).2 := by
  show lexemes tags (.quoted mark literal) ('\x7b' :: '\x7b' :: rest) = _
  refine lexemes_step ?_
  show quotedStep mark literal '\x7b' ('\x7b' :: rest) = _
  have other : '\x7b' ≠ mark.char := by cases mark <;> decide
  unfold quotedStep
  rw [show '\x7b' :: '\x7b' :: rest = templateOpening ++ rest from rfl, dropPrefix?_append,
    if_neg other]

/-- **An opening mark is that of a template**, but in the body of a literal element. -/
theorem lexemes_templateOpening {tags : LiteralTags} {mode : Mode}
    (outside : ∀ name, mode ≠ .literal name) (rest : List Char) :
    lexemes tags mode (templateOpening ++ rest) =
      (templateLexemes rest).1 ++ lexemes tags mode (templateLexemes rest).2 := by
  cases mode with
  | markup => exact lexemes_template rest
  | tag literal => exact lexemes_templateValue literal rest
  | quoted mark literal => exact lexemes_quotedTemplate mark literal rest
  | literal name => exact absurd rfl (outside name)

/-! ### Expressions -/

/-- A template as it is written: a text between the marks, with blanks around it. -/
def writtenTemplate (left : List Char) (text : String) (right : List Char) : List Char :=
  templateOpening ++ (left ++ (text.toList ++ (right ++ templateClosing)))

/-- The lexemes of a closed template: a text between the marks, with blanks around it. -/
def closedLexemes (leading body trailing : List Char) : List Lexeme :=
  (.templateOpen, templateOpening) :: lexeme .whitespace leading ++ [(.textContent, body)]
    ++ lexeme .whitespace trailing ++ [(.templateClose, templateClosing)]

/-- The node of a closed template that stands at an offset. -/
def closedTemplate (offset : Nat) (leading body trailing : List Char) : Template :=
  templateAt ⟨offset, offset + byteLength templateOpening⟩ leading body trailing templateClosing

section Expression

variable {text : String} {expr : Expr} {left right : List Char}

/-- **An expression with blanks around it** is what trimming leaves of it, with blanks around that.
The scanner passes over it up to its last blank. -/
theorem exists_trimmed_of_parse (parsed : Expr.parse text = .ok expr) (before : AreBlank left)
    (after : AreBlank right) :
    ∃ leading trailing, AreBlank leading ∧ AreBlank trailing ∧
      left ++ (text.toList ++ right) = leading ++ (trimMarkup text.toList ++ trailing) ∧
      IsTrimmed (trimMarkup text.toList) ∧ Passes (trimMarkup text.toList ++ trailing) := by
  obtain ⟨char, member, other⟩ := exists_not_blank_of_parse parsed
  have plain : isMarkupBlank char = false := by
    by_contra blank
    have wide := isBlank_of_isMarkupBlank (Bool.not_eq_false _ ▸ blank)
    rw [other] at wide
    cases wide
  obtain ⟨leading, trailing, first, last, whole, trimmed⟩ := exists_trimmed ⟨char, member, plain⟩
  have unscanned : ∀ {chars : List Char}, AreBlank chars → ∀ char ∈ chars, isScanned char = false :=
    fun blank char inside => isScanned_of_class isMarkupBlank (by decide) (blank char inside)
  have passes := passes_of_parse parsed
  rw [whole] at passes
  refine ⟨left ++ leading, trailing ++ right, before.append first, last.append after, ?_, trimmed,
    ?_⟩
  · conv_lhs => rw [whole]
    simp only [List.append_assoc]
  · rw [← List.append_assoc]
    exact (Passes.of_append (unscanned first) passes).append (.all (unscanned after))

theorem IsTrimmed.isTail {leading body trailing : List Char} (trimmed : IsTrimmed body)
    (first : AreBlank leading) (last : AreBlank trailing) (rest : List Char) :
    IsTail leading body trailing templateClosing rest where
  trimmed := by
    rw [trimMarkup_append first, trimmed.trimEndBy_blank last]
    intro char here
    rw [List.head?_append_of_ne_nil _ trimmed.nonempty] at here
    exact trimmed.first char here
  empty := fun none => absurd none trimmed.nonempty
  ends := .inl rfl

/-- A closed template is read from its lexemes without a problem, and the tokens behind them are
left. -/
theorem readTemplate_closed {leading body trailing rest : List Char} {tags : LiteralTags}
    {mode : Mode} {offset : Nat} {opening : Token} {others : List Token} (trimmed : IsTrimmed body)
    (first : AreBlank leading) (last : AreBlank trailing)
    (placed : Token.place offset (closedLexemes leading body trailing ++ lexemes tags mode rest) =
      opening :: others) :
    readTemplate opening others = ⟨closedTemplate offset leading body trailing, [],
      Token.place (closedTemplate offset leading body trailing).span.stop
        (lexemes tags mode rest)⟩ := by
  have content : lexeme .textContent body = [(.textContent, body)] :=
    if_neg (by simpa using trimmed.nonempty)
  have closes : lexeme .templateClose templateClosing = [(.templateClose, templateClosing)] := rfl
  have shape : closedLexemes leading body trailing ++ lexemes tags mode rest =
      (.templateOpen, templateOpening) ::
        (tailLexemes leading body trailing templateClosing ++ lexemes tags mode rest) := by
    simp only [closedLexemes, tailLexemes, content, closes, List.cons_append, List.append_assoc]
  rw [shape, Token.place] at placed
  obtain ⟨rfl, rfl⟩ := List.cons.inj placed
  obtain ⟨node, problems, left⟩ := readTemplate_place tags mode (trimmed.isTail first last rest)
    (Token.mk .templateOpen (String.ofList templateOpening)
      ⟨offset, offset + byteLength templateOpening⟩)
  rw [node] at left
  have whole : ∀ reading : Reading Template,
      reading = ⟨reading.node, reading.problems, reading.rest⟩ := fun _ => rfl
  rw [whole (readTemplate _ _), node, left, problems trimmed.nonempty (by decide)]
  rfl

/-- **The lexer and the language of expressions agree on where a template ends.** When an expression
is written between the marks, with blanks around it, then in markup, in a tag and in a quoted value
the lexer reads the opening mark, the blanks in front if there are any, the expression without the
blanks around it, the blanks behind it if there are any, and the closing mark, and goes on behind
that as before. From those tokens the parser reads a template of just that text without a problem,
and every template of a source that stands where one is written so is that one. -/
theorem template_of_expression (parsed : Expr.parse text = .ok expr) (before : AreBlank left)
    (after : AreBlank right) :
    trimMarkup text.toList ≠ [] ∧
    ∃ leading trailing, AreBlank leading ∧ AreBlank trailing ∧
      left ++ (text.toList ++ right) = leading ++ (trimMarkup text.toList ++ trailing) ∧
      (∀ tags mode rest, (∀ name, mode ≠ .literal name) →
        lexemes tags mode (writtenTemplate left text right ++ rest) =
          closedLexemes leading (trimMarkup text.toList) trailing ++ lexemes tags mode rest) ∧
      (∀ tags mode rest offset opening others, (∀ name, mode ≠ .literal name) →
        Token.place offset (lexemes tags mode (writtenTemplate left text right ++ rest)) =
          opening :: others →
        readTemplate opening others =
          ⟨closedTemplate offset leading (trimMarkup text.toList) trailing, [],
            Token.place (offset + byteLength (writtenTemplate left text right))
              (lexemes tags mode rest)⟩) ∧
      ∀ tags source ahead rest node,
        source.toList = ahead ++ (writtenTemplate left text right ++ rest) →
        (Node.root (parse tags source).root).Below (.template node) →
        node.span.start = byteLength ahead →
        node = closedTemplate (byteLength ahead) leading (trimMarkup text.toList) trailing := by
  obtain ⟨leading, trailing, first, last, whole, trimmed, passes⟩ :=
    exists_trimmed_of_parse parsed before after
  have reads : ∀ rest,
      templateLexemes (left ++ (text.toList ++ (right ++ templateClosing)) ++ rest) =
        (closedLexemes leading (trimMarkup text.toList) trailing, rest) := by
    intro rest
    rw [closedLexemes, ← templateLexemes_expression trimmed passes first last rest]
    refine congrArg templateLexemes ?_
    have inside := congrArg (· ++ (templateClosing ++ rest)) whole
    simpa only [List.append_assoc] using inside
  have lexed : ∀ tags mode rest, (∀ name, mode ≠ .literal name) →
      lexemes tags mode (writtenTemplate left text right ++ rest) =
        closedLexemes leading (trimMarkup text.toList) trailing ++ lexemes tags mode rest := by
    intro tags mode rest outside
    rw [writtenTemplate, List.append_assoc, lexemes_templateOpening outside, reads]
  have size : ∀ offset, offset + byteLength (writtenTemplate left text right) =
      (closedTemplate offset leading (trimMarkup text.toList) trailing).span.stop := by
    intro offset
    have inside := congrArg byteLength whole
    simp only [writtenTemplate, closedTemplate, templateAt, byteLength_append] at inside ⊢
    omega
  refine ⟨trimmed.nonempty, leading, trailing, first, last, whole, lexed, ?_, ?_⟩
  · intro tags mode rest offset opening others outside placed
    rw [lexed tags mode rest outside] at placed
    rw [readTemplate_closed trimmed first last placed, size]
  · intro tags source ahead rest node written below start
    obtain ⟨opening, others, suffix, kind, rfl⟩ := parse_originates tags source _ below
    obtain ⟨front, inner, next, behind, split, place, placed, later⟩ :=
      exists_template_of_suffix suffix kind
    -- The template stands where the lexer read it, so that what it read there is what is written.
    obtain ⟨rfl, same⟩ : front = ahead ∧ templateOpening ++ inner =
        writtenTemplate left text right ++ rest :=
      append_inj_of_byteLength (split.symm.trans written) (place.symm.trans start)
    rw [writtenTemplate, List.append_assoc, List.append_cancel_left_eq] at same
    rw [same, reads rest] at placed later
    rw [later.tokens_eq, byteLength_append, ← place_append] at placed
    rw [readTemplate_closed trimmed first last placed.symm]

end Expression

/-- The braces in a string do not close the template. -/
theorem template_of_string :
    ∃ expr leading trailing, Expr.parse "'\x7d\x7d'" = .ok expr ∧
      lexemes .standard .markup (writtenTemplate [' '] "'\x7d\x7d'" [] ++ ['!']) =
        closedLexemes leading "'\x7d\x7d'".toList trailing ++ lexemes .standard .markup ['!'] := by
  have accepted : (Expr.parse "'\x7d\x7d'").isOk = true := by cbv
  have trimmed : trimMarkup "'\x7d\x7d'".toList = "'\x7d\x7d'".toList := by decide
  cases parsed : Expr.parse "'\x7d\x7d'" with
  | error fault =>
    rw [parsed] at accepted
    cases accepted
  | ok expr =>
    obtain ⟨_, leading, trailing, _, _, _, lexed, _⟩ := template_of_expression parsed
      (List.forall_mem_singleton.mpr rfl : AreBlank [' ']) (List.forall_mem_nil _)
    rw [trimmed] at lexed
    exact ⟨expr, leading, trailing, rfl, lexed .standard .markup ['!'] fun _ => Mode.noConfusion⟩

end PromptMarkup.Markup
