/-
**Tokens of markup.**

* `TokenKind`: the kinds, with the fixed text of those that have one;
* `Token`: a piece of the source with its range;
* `Token.place`: tokens for consecutive lexemes, the ranges following from their texts.
-/

import PromptMarkup.Source.Span
import PromptMarkup.Text.Cut

namespace PromptMarkup.Markup

/-- The kinds of tokens. -/
inductive TokenKind where
  | openBracket
  | closingOpenBracket
  | closeBracket
  | selfCloseBracket
  | equals
  | identifier
  | doubleQuote
  | singleQuote
  | templateOpen
  | templateClose
  | commentOpen
  | commentClose
  | pragmaKeyword
  | whitespace
  | textContent
  deriving DecidableEq, Repr

/-- The text that every token of a kind has. -/
def TokenKind.fixedText : TokenKind → Option String
  | openBracket => some "<"
  | closingOpenBracket => some "</"
  | closeBracket => some ">"
  | selfCloseBracket => some "/>"
  | equals => some "="
  | doubleQuote => some "\""
  | singleQuote => some "'"
  | templateOpen => some "\x7b\x7b"
  | templateClose => some "\x7d\x7d"
  | commentOpen => some "<!--"
  | commentClose => some "-->"
  | pragmaKeyword => some "@pragma"
  | identifier => none
  | whitespace => none
  | textContent => none

/-- A piece of text and its kind. -/
abbrev Lexeme := TokenKind × List Char

/-- A piece of the source. -/
structure Token where
  kind : TokenKind
  text : String
  span : Span
  deriving DecidableEq, Repr

/-- The tokens of consecutive lexemes, the first of which starts at `offset`. -/
def Token.place (offset : Nat) : List Lexeme → List Token
  | [] => []
  | (kind, chars) :: rest =>
    let stop := offset + Text.byteLength chars
    ⟨kind, String.ofList chars, ⟨offset, stop⟩⟩ :: Token.place stop rest

end PromptMarkup.Markup
