/-
**What the lexer reads.**

Every part of the lexer cuts lexemes off the front of a text. Nothing is lost on the way: the
lexemes spell what was cut off, none of them is empty, and one of a kind with a fixed text is that
text.

* `spelling`: the text of some lexemes in a row;
* `Cut`: lexemes cut off the front of a text, with what is left;
* `templateLexemes_cut`, `commentLexemes_cut`, `step_cuts`: templates, comments and steps are cuts;
* `lexemes_cut`: all of a text is cut into lexemes.
-/

import Mathlib.Data.List.DropRight
import PromptMarkup.Markup.Lexer

namespace PromptMarkup.Markup

open Text

/-! ### Cuts -/

/-- The text of some lexemes in a row. -/
def spelling (lexemes : List Lexeme) : List Char := lexemes.flatMap Prod.snd

@[simp] theorem spelling_nil : spelling [] = [] := rfl

@[simp] theorem spelling_cons (lexeme : Lexeme) (rest : List Lexeme) :
    spelling (lexeme :: rest) = lexeme.2 ++ spelling rest := rfl

@[simp] theorem spelling_append (first second : List Lexeme) :
    spelling (first ++ second) = spelling first ++ spelling second := List.flatMap_append

/-- A lexeme has text, and it is the text of its kind if the kind has one. -/
structure IsProper (lexeme : Lexeme) : Prop where
  nonempty : lexeme.2 ≠ []
  fixed : ∀ text, lexeme.1.fixedText = some text → String.ofList lexeme.2 = text

/-- Proper lexemes cut off the front of a text, with what is left of it. -/
structure Cut (lexemes : List Lexeme) (rest chars : List Char) : Prop where
  whole : spelling lexemes ++ rest = chars
  proper : ∀ lexeme ∈ lexemes, IsProper lexeme

namespace Cut

variable {kind : TokenKind} {first second : List Lexeme} {middle rest chars text : List Char}

theorem nil : Cut [] rest rest := ⟨rfl, fun _ member => by cases member⟩

theorem single (proper : IsProper (kind, text)) : Cut [(kind, text)] rest (text ++ rest) where
  whole := by simp
  proper := by
    intro lexeme member
    rw [List.mem_singleton.mp member]
    exact proper

/-- Two cuts, one behind the other. -/
theorem append (front : Cut first middle chars) (back : Cut second rest middle) :
    Cut (first ++ second) rest chars where
  whole := by rw [spelling_append, List.append_assoc, back.whole, front.whole]
  proper := by
    intro lexeme member
    rcases List.mem_append.mp member with inside | inside
    · exact front.proper lexeme inside
    · exact back.proper lexeme inside

/-- Text of a kind without a fixed text, cut off if there is any. -/
theorem free (text rest : List Char) (free : kind.fixedText = none) :
    Cut (lexeme kind text) rest (text ++ rest) := by
  unfold lexeme
  by_cases empty : text = []
  · subst empty
    exact nil
  · rw [if_neg (by simpa using empty)]
    exact single ⟨empty, fun fixed found => by rw [free] at found; cases found⟩

/-- The first character and more of a kind without a fixed text. -/
theorem word {first : Char} (free : kind.fixedText = none) (whole : text ++ rest = chars) :
    Cut [(kind, first :: text)] rest (first :: chars) := by
  rw [← whole]
  show Cut [(kind, first :: text)] rest (first :: text ++ rest)
  exact single ⟨List.cons_ne_nil _ _, fun fixed found => by rw [free] at found; cases found⟩

/-- The fixed text of a kind. -/
theorem mark (text : List Char) (nonempty : text ≠ [])
    (fixed : kind.fixedText = some (String.ofList text)) :
    Cut [(kind, text)] rest (text ++ rest) :=
  single ⟨nonempty, fun found same => by rw [fixed] at same; exact Option.some.inj same⟩

/-- The fixed text of a kind at the front of a text. -/
theorem mark_of_drop (nonempty : text ≠ []) (fixed : kind.fixedText = some (String.ofList text))
    (found : dropPrefix? text chars = some rest) : Cut [(kind, text)] rest chars := by
  rw [eq_append_of_dropPrefix? found]
  exact mark text nonempty fixed

end Cut

/-! ### Templates -/

theorem cutExpression_append (depth : Nat) (quote : Option Char) (chars : List Char) :
    (cutExpression depth quote chars).1 ++ (cutExpression depth quote chars).2 = chars := by
  fun_induction cutExpression depth quote chars <;> simp_all

/-- What is trimmed off the end of a text stands behind the rest of it. -/
theorem trimEndBy_append_drop (drop : Char → Bool) (chars : List Char) :
    trimEndBy drop chars ++ chars.drop (trimEndBy drop chars).length = chars :=
  List.prefix_iff_eq_append.mp (List.rdropWhile_prefix drop chars)

/-- Characters at the front of a text, of a kind without a fixed text. -/
theorem cutWhile_cut (kind : TokenKind) (free : kind.fixedText = none) (keep : Char → Bool)
    (chars : List Char) :
    Cut (lexeme kind (cutWhile keep chars).1) (cutWhile keep chars).2 chars := by
  have cut := Cut.free (cutWhile keep chars).1 (cutWhile keep chars).2 free
  rwa [cutWhile_append] at cut

/-- **A template is cut off behind its opening mark**, whether it is closed or not. -/
theorem templateLexemes_cut (chars : List Char) :
    Cut (templateLexemes chars).1 (templateLexemes chars).2 (templateOpening ++ chars) := by
  have opening : Cut [(.templateOpen, templateOpening)] chars (templateOpening ++ chars) :=
    .mark _ (by decide) (by decide)
  have blanks := cutWhile_cut .whitespace rfl isMarkupBlank chars
  have whole := cutExpression_append 0 none (cutWhile isMarkupBlank chars).2
  unfold templateLexemes
  simp only
  generalize cutExpression 0 none (cutWhile isMarkupBlank chars).2 = parts at whole ⊢
  obtain ⟨body, after⟩ := parts
  simp only at whole ⊢
  have text : Cut (lexeme .textContent (trimEndBy isMarkupBlank body))
      (body.drop (trimEndBy isMarkupBlank body).length ++ after) (body ++ after) := by
    have cut : Cut (lexeme .textContent (trimEndBy isMarkupBlank body)) _ _ :=
      .free _ (body.drop (trimEndBy isMarkupBlank body).length ++ after) rfl
    rwa [← List.append_assoc, trimEndBy_append_drop] at cut
  have trailing : Cut (lexeme .whitespace (body.drop (trimEndBy isMarkupBlank body).length)) after
      (body.drop (trimEndBy isMarkupBlank body).length ++ after) := .free _ _ rfl
  have inner := ((opening.append blanks).append (whole ▸ text)).append trailing
  split
  next rest found => exact inner.append (.mark_of_drop (by decide) (by decide) found)
  next => exact inner

/-! ### Comments -/

/-- **The text of a pragma is cut into words, blanks and keywords.** -/
theorem pragmaLexemes_cut (chars : List Char) : Cut (pragmaLexemes chars) [] chars := by
  fun_induction pragmaLexemes chars with
  | case1 => exact .nil
  | case2 first rest blank ih =>
    exact (Cut.word rfl (cutWhile_append isMarkupBlank rest)).append ih
  | case3 first rest blank after found ih =>
    exact (Cut.mark_of_drop (by decide) (by decide) found).append ih
  | case4 first rest blank found keep ih =>
    exact (Cut.word rfl (cutWhile_append keep rest)).append ih

/-- **A comment is cut off behind its opening mark**, whether it is closed or not. -/
theorem commentLexemes_cut (chars : List Char) :
    Cut (commentLexemes chars).1 (commentLexemes chars).2 (commentOpening ++ chars) := by
  have opening : Cut [(.commentOpen, commentOpening)] chars (commentOpening ++ chars) :=
    .mark _ (by decide) (by decide)
  have whole := cutWhere_append commentClosing.isPrefixOf chars
  unfold commentLexemes
  simp only
  generalize cutWhere commentClosing.isPrefixOf chars = parts at whole ⊢
  obtain ⟨body, after⟩ := parts
  simp only at whole ⊢
  have words : Cut (if pragmaWord.isPrefixOf (trimStart body) then pragmaLexemes body
      else lexeme .textContent body) after chars := by
    rw [← whole]
    split
    · have pragma := pragmaLexemes_cut body
      have all := pragma.whole
      rw [List.append_nil] at all
      exact ⟨by rw [all], pragma.proper⟩
    · exact .free _ _ rfl
  have inner := opening.append words
  split
  next rest found => exact inner.append (.mark_of_drop (by decide) (by decide) found)
  next => exact inner

/-! ### Steps -/

/-- What a step reads is cut off the front of a text. -/
def Step.Cuts (step : Step) (chars : List Char) : Prop := Cut step.lexemes step.rest chars

theorem markupStep_cuts (tags : LiteralTags) (first : Char) (rest : List Char) :
    (markupStep tags first rest).Cuts (first :: rest) := by
  unfold markupStep
  split
  next body found =>
    rw [eq_append_of_dropPrefix? found]
    exact commentLexemes_cut body
  next =>
    split
    next body found =>
      rw [eq_append_of_dropPrefix? found]
      exact templateLexemes_cut body
    next =>
      split
      next closing =>
        obtain ⟨rfl, slash, _⟩ := closing
        obtain ⟨more, rfl⟩ := List.head?_eq_some_iff.mp slash
        exact .mark ['<', '/'] (by decide) (by decide)
      next =>
        split
        next opening =>
          obtain ⟨rfl, _⟩ := opening
          exact .mark ['<'] (by decide) (by decide)
        next =>
          split
          · exact .word rfl (cutWhile_append isMarkupBlank rest)
          · exact .word rfl (cutWhere_append _ rest)

/-- A step that reads one character of a kind with that text. -/
theorem cuts_char {kind : TokenKind} {char first : Char} {mode : Mode} {rest : List Char}
    (same : first = char) (fixed : kind.fixedText = some (String.ofList [char])) :
    (Step.mk [(kind, [char])] mode rest).Cuts (first :: rest) := by
  rw [same]
  exact .mark [char] (List.cons_ne_nil _ _) fixed

theorem tagStep_cuts (tags : LiteralTags) (literal : Option (List Char)) (first : Char)
    (rest : List Char) : (tagStep tags literal first rest).Cuts (first :: rest) := by
  unfold tagStep
  split
  · exact .word rfl (cutWhile_append isMarkupBlank rest)
  · split
    · exact .word rfl (cutWhile_append isNameContinue rest)
    · split
      next closing =>
        obtain ⟨rfl, bracket⟩ := closing
        obtain ⟨more, rfl⟩ := List.head?_eq_some_iff.mp bracket
        exact .mark ['/', '>'] (by decide) (by decide)
      next =>
        split
        next same => exact cuts_char same (by decide)
        next =>
          split
          next same => exact cuts_char same (by decide)
          next =>
            split
            next same => exact cuts_char same (by decide)
            next =>
              split
              next same => exact cuts_char same (by decide)
              next =>
                split
                · exact markupStep_cuts tags first rest
                · split
                  next body found =>
                    rw [eq_append_of_dropPrefix? found]
                    exact templateLexemes_cut body
                  next => exact .word rfl (cutWhere_append endsTagText rest)

theorem quotedStep_cuts (mark : QuoteMark) (literal : Option (List Char)) (first : Char)
    (rest : List Char) : (quotedStep mark literal first rest).Cuts (first :: rest) := by
  unfold quotedStep
  split
  next same => exact cuts_char same (by cases mark <;> decide)
  next =>
    split
    next body found =>
      rw [eq_append_of_dropPrefix? found]
      exact templateLexemes_cut body
    next => exact .word rfl (cutWhere_append _ rest)

theorem literalStep_cuts (tags : LiteralTags) (name : List Char) (first : Char)
    (rest : List Char) : (literalStep tags name first rest).Cuts (first :: rest) := by
  unfold literalStep
  split
  · exact markupStep_cuts tags first rest
  · exact .word rfl (cutWhere_append (closesLiteral name) rest)

/-- **Every step cuts its lexemes off the front of the text**, in any mode. -/
theorem step_cuts (tags : LiteralTags) (mode : Mode) (first : Char) (rest : List Char) :
    (step tags mode first rest).Cuts (first :: rest) := by
  cases mode with
  | markup => exact markupStep_cuts tags first rest
  | tag literal => exact tagStep_cuts tags literal first rest
  | quoted mark literal => exact quotedStep_cuts mark literal first rest
  | literal name => exact literalStep_cuts tags name first rest

/-! ### All lexemes -/

/-- **The lexemes of a text spell it**, whatever mode the lexer starts in. -/
theorem lexemes_cut (tags : LiteralTags) (mode : Mode) (chars : List Char) :
    Cut (lexemes tags mode chars) [] chars := by
  fun_induction lexemes tags mode chars with
  | case1 => exact .nil
  | case2 mode first rest ih => exact Cut.append (step_cuts tags mode first rest) ih

end PromptMarkup.Markup
