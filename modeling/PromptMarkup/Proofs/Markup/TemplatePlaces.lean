/-
**Templates in the source.**

Behind every opening mark the lexer reads a whole template: blanks, an expression without blanks
around it, blanks, and the closing mark unless the source ends before it. So the range of a template
is that of its braces with everything between them, and the expression is what stands between them
without the blanks around it.

* `readTemplate_place`: what is read from the tokens of a template;
* `Span.ReadsTemplate`: the source has a template with an expression at a range;
* `readTemplate_lexed`, `readTemplate_reads`: it has one wherever a template is read.
-/

import PromptMarkup.Proofs.Markup.LexerRun
import PromptMarkup.Proofs.Markup.TokenTiling

namespace PromptMarkup.Markup

open Text

/-! ### Tokens of lexemes -/

section Placed

variable (kind : TokenKind) (offset : Nat) {text : List Char} {after : List Lexeme}

/-- A token that may be missing is taken where its lexeme is placed, if no other one of the kind can
be mistaken for it. -/
theorem takeKind_place (other : text = [] → ∀ item ∈ after.head?, item.1 ≠ kind) :
    ∃ token, takeKind kind (Token.place offset (lexeme kind text ++ after)) =
        (token, Token.place (offset + byteLength text) after) ∧
      token.isNone = text.isEmpty ∧ Run.optionalText token = String.ofList text ∧
      Run.optionalSpan offset token = ⟨offset, offset + byteLength text⟩ := by
  cases text with
  | nil =>
    refine ⟨none, ?_, rfl, rfl, rfl⟩
    cases after with
    | nil => rfl
    | cons item rest => exact if_neg (other rfl item rfl)
  | cons first rest => exact ⟨some _, if_pos rfl, rfl, rfl, rfl⟩

theorem skipKind_place (other : text = [] → ∀ item ∈ after.head?, item.1 ≠ kind) :
    skipKind kind offset (Token.place offset (lexeme kind text ++ after)) =
      (offset + byteLength text, Token.place (offset + byteLength text) after) := by
  cases text with
  | nil =>
    cases after with
    | nil => rfl
    | cons item rest => exact if_neg (other rfl item rfl)
  | cons first rest => exact if_pos rfl

end Placed

namespace IsTail

variable (tags : LiteralTags) (mode : Mode) {blanks content trailing closing rest : List Char}

/-- What follows the middle part of a template is no text. -/
theorem behind (tail : IsTail blanks content trailing closing rest) : trailing = [] →
    ∀ item ∈ (lexeme .templateClose closing ++ lexemes tags mode rest).head?,
      item.1 = .templateClose := by
  intro _ item first
  rcases tail.ends with rfl | ⟨rfl, rfl⟩
  · rw [← Option.mem_some.mp first]
  · rw [lexemes] at first
    cases first

theorem ahead (tail : IsTail blanks content trailing closing rest) (none : content = []) :
    ∀ item ∈ (lexeme .whitespace trailing ++
      (lexeme .templateClose closing ++ lexemes tags mode rest)).head?,
        item.1 = .templateClose := by
  have nothing := tail.empty none
  subst nothing
  exact tail.behind tags mode rfl

theorem front (tail : IsTail blanks content trailing closing rest) :
    ∀ item ∈ (lexeme .textContent content ++ (lexeme .whitespace trailing ++
      (lexeme .templateClose closing ++ lexemes tags mode rest))).head?, item.1 ≠ .whitespace := by
  intro item first
  cases content with
  | nil =>
    rw [tail.ahead tags mode rfl item first]
    decide
  | cons char others =>
    rw [← Option.mem_some.mp first]
    exact TokenKind.noConfusion

end IsTail

/-! ### Templates that are read -/

/-- The template that is read from its parts behind an opening mark at a range. -/
def templateAt (opening : Span) (blanks content trailing closing : List Char) : Template where
  expression := String.ofList content
  expressionSpan :=
    ⟨opening.stop + byteLength blanks, opening.stop + byteLength (blanks ++ content)⟩
  span := ⟨opening.start, opening.stop + byteLength (blanks ++ (content ++ (trailing ++ closing)))⟩

/-- **What is read behind an opening mark** is what stands between it and the closing mark, and the
tokens behind that mark are left. -/
theorem readTemplate_place (tags : LiteralTags) (mode : Mode)
    {blanks content trailing closing rest : List Char}
    (tail : IsTail blanks content trailing closing rest) (opening : Token) :
    let reading := readTemplate opening (Token.place opening.span.stop
      (tailLexemes blanks content trailing closing ++ lexemes tags mode rest))
    reading.node = templateAt opening.span blanks content trailing closing ∧
      (content ≠ [] → closing ≠ [] → reading.problems = []) ∧
      reading.rest = Token.place reading.node.span.stop (lexemes tags mode rest) := by
  intro reading
  have blank := skipKind_place .whitespace opening.span.stop fun (_ : blanks = []) =>
    tail.front tags mode
  generalize first : opening.span.stop + byteLength blanks = start at blank
  obtain ⟨token, text, _, expression, span⟩ := takeKind_place .textContent start
    fun (none : content = []) item here => by
      rw [tail.ahead tags mode none item here]
      decide
  generalize second : start + byteLength content = middle at text span
  have trail := skipKind_place .whitespace middle
    fun (none : trailing = []) item here => by
      rw [tail.behind tags mode none item here]
      decide
  generalize third : middle + byteLength trailing = stop at trail
  obtain ⟨mark, last, closes, _, close⟩ := takeKind_place .templateClose stop
    fun (none : closing = []) (item : Lexeme) (here : item ∈ (lexemes tags mode rest).head?) => by
      rcases tail.ends with same | ⟨_, rfl⟩
      · rw [none] at same
        cases same
      · rw [lexemes] at here
        cases here
  have parts : tailLexemes blanks content trailing closing ++ lexemes tags mode rest =
      lexeme .whitespace blanks ++ (lexeme .textContent content ++ (lexeme .whitespace trailing ++
        (lexeme .templateClose closing ++ lexemes tags mode rest))) := by
    simp only [tailLexemes, List.append_assoc]
  have inside := Run.elim_span start token
  rw [span] at inside
  have read : (token.elim "" fun token => token.text) = String.ofList content := expression
  simp only [reading, readTemplate, parts, blank, text, trail, last, Run.elim_stop, span, close,
    inside, read, closes, and_true, templateAt, byteLength_append]
  refine ⟨?_, fun some closed => ?_⟩
  · simp only [Template.mk.injEq, Span.mk.injEq, true_and]
    omega
  · have full : (String.ofList content).isEmpty = false := by
      simpa using some
    rw [full, List.isEmpty_eq_false_iff.mpr closed]
    rfl

end PromptMarkup.Markup

namespace PromptMarkup

open Markup Text

/-- The source has a template with an expression at a range: that is what the blanks of markup leave
between the braces, of which the closing ones are missing where the source ends with the
template. -/
def Span.ReadsTemplate (source : String) (span : Span) (expression : String) : Prop :=
  ∃ content, trimMarkup content = expression.toList ∧
    (span.Reads source (String.ofList (templateOpening ++ content ++ templateClosing)) ∨
      span.Reads source (String.ofList (templateOpening ++ content)) ∧
        span.stop = source.utf8ByteSize)

/-- A template has at least its opening braces. -/
theorem Span.ReadsTemplate.start_lt_stop {source : String} {span : Span} {expression : String}
    (reads : span.ReadsTemplate source expression) : span.start < span.stop := by
  have braces : 0 < byteLength templateOpening := byteLength_pos (List.cons_ne_nil _ _)
  obtain ⟨content, _, closed | ⟨opened, _⟩⟩ := reads
  · rw [closed.stop_eq, String.toList_ofList, byteLength_append, byteLength_append]
    omega
  · rw [opened.stop_eq, String.toList_ofList, byteLength_append]
    omega

namespace Markup

/-- **A template is read where its parts stand** behind an opening mark. -/
theorem IsTail.readsTemplate {source : String}
    {before blanks content trailing closing rest : List Char}
    (tail : IsTail blanks content trailing closing rest)
    (whole : source.toList = before ++ (templateOpening ++
      (blanks ++ (content ++ (trailing ++ closing))) ++ rest)) :
    (⟨byteLength before, byteLength before + byteLength templateOpening +
      byteLength (blanks ++ (content ++ (trailing ++ closing)))⟩ : Span).ReadsTemplate source
        (String.ofList content) := by
  have reads : (⟨byteLength before, byteLength before + byteLength templateOpening +
      byteLength (blanks ++ (content ++ (trailing ++ closing)))⟩ : Span).Reads source
        (String.ofList (templateOpening ++ (blanks ++ (content ++ trailing)) ++ closing)) := by
    refine ⟨before, rest, ?_, ?_⟩
    · rw [whole, String.toList_ofList]
      simp only [List.append_assoc]
    · rw [String.toList_ofList, Span.mk.injEq]
      simp only [byteLength_append]
      exact ⟨trivial, by omega⟩
  refine ⟨blanks ++ (content ++ trailing), ?_, ?_⟩
  · rw [tail.trimmed, String.toList_ofList]
  · rcases tail.ends with rfl | ⟨rfl, rfl⟩
    · exact .inl reads
    · simp only [List.append_nil] at reads whole ⊢
      refine .inr ⟨reads, ?_⟩
      rw [← byteLength_toList, whole]
      simp only [byteLength_append]
      omega

/-- **A template that the lexer reads in a step is read as one**, and the tokens behind the step are
left. -/
theorem readTemplate_lexed {tags : LiteralTags} {source : String} {before inner : List Char}
    {next : Mode} {opening : Token} {rest others : List Token}
    (placed : opening :: rest = Token.place (byteLength before) (templateLexemes inner).1 ++ others)
    (lexed : Lexed tags source (before ++ spelling (templateLexemes inner).1) next
      (templateLexemes inner).2 others) :
    (readTemplate opening rest).rest = others ∧
      (readTemplate opening rest).node.span.ReadsTemplate source
        (readTemplate opening rest).node.expression := by
  obtain ⟨whole, rfl⟩ := lexed
  obtain ⟨blanks, content, trailing, closing, shape, tail⟩ := templateLexemes_ends inner
  rw [byteLength_append, ← place_append, shape, List.cons_append, Token.place] at placed
  rw [List.append_assoc, shape, spelling_cons, spelling_tailLexemes] at whole
  obtain ⟨rfl, rfl⟩ := List.cons.inj placed
  obtain ⟨node, _, left⟩ := readTemplate_place tags next tail
    (Token.mk .templateOpen (String.ofList templateOpening)
      ⟨byteLength before, byteLength before + byteLength templateOpening⟩)
  rw [node] at left
  refine ⟨?_, ?_⟩
  · rw [shape, spelling_cons, spelling_tailLexemes, byteLength_append, byteLength_append,
      ← Nat.add_assoc]
    exact left
  · rw [node]
    exact tail.readsTemplate whole

/-- **A template stands where the tokens of one are read.** -/
theorem readTemplate_reads {tags : LiteralTags} {source : String} {opening : Token}
    {rest : List Token} (suffix : opening :: rest <:+ tokenize tags source)
    (kind : opening.kind = .templateOpen) :
    (readTemplate opening rest).node.span.ReadsTemplate source
      (readTemplate opening rest).node.expression := by
  obtain ⟨before, inner, next, others, _, _, placed, lexed⟩ :=
    exists_template_of_suffix suffix kind
  exact (readTemplate_lexed placed lexed).2

end Markup

end PromptMarkup
