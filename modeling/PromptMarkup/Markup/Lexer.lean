/-
**From characters to tokens.**

The lexer is always in one of four modes. What it does not recognize in a mode becomes text and is
left to the parser to judge, so it never fails.

* `Mode`: between tags, inside a tag, inside a quoted value, in the body of a literal element;
* `step`: the lexemes read next in a mode, the mode behind them and the remaining text;
* `step_length_lt`: a step always takes something;
* `lexemes`: all lexemes of a text;
* `tokenize`: the tokens of a source.
-/

import PromptMarkup.Markup.Name
import PromptMarkup.Markup.Token

namespace PromptMarkup.Markup

open Text

/-! ## Characters and fixed texts -/

/-- The characters that begin a name. -/
def isNameStart (char : Char) : Bool := char.isAlpha || char = '_'

/-- The characters that continue a name. -/
def isNameContinue (char : Char) : Bool :=
  char.isAlphanum || char = '-' || char = '_' || char = '.' || char = ':'

/-- The text begins with a name. -/
def startsName : List Char → Bool
  | [] => false
  | char :: _ => isNameStart char

/-- The mark that opens a template. -/
def templateOpening : List Char := ['\x7b', '\x7b']

/-- The mark that closes a template. -/
def templateClosing : List Char := ['\x7d', '\x7d']

/-- The mark that opens a comment. -/
def commentOpening : List Char := ['<', '!', '-', '-']

/-- The mark that closes a comment. -/
def commentClosing : List Char := ['-', '-', '>']

/-- The word that makes a comment a pragma. -/
def pragmaWord : List Char := ['@', 'p', 'r', 'a', 'g', 'm', 'a']

/-- The text begins with a tag, a template or a comment. -/
def beginsMarkup (chars : List Char) : Bool :=
  templateOpening.isPrefixOf chars || commentOpening.isPrefixOf chars
    || match chars with
      | '<' :: '/' :: rest => startsName rest
      | '<' :: rest => startsName rest
      | _ => false

/-- A lexeme of some text; empty text makes none. -/
def lexeme (kind : TokenKind) (chars : List Char) : List Lexeme :=
  if chars.isEmpty then [] else [(kind, chars)]

/-! ## Modes -/

/-- The marks around a quoted value. -/
inductive QuoteMark where
  | double
  | single
  deriving DecidableEq, Repr

/-- The character of a quote mark. -/
def QuoteMark.char : QuoteMark → Char
  | double => '"'
  | single => '\''

/-- The token kind of a quote mark. -/
def QuoteMark.kind : QuoteMark → TokenKind
  | double => .doubleQuote
  | single => .singleQuote

/-- Where in the markup the lexer is. Inside an open tag of a literal element it carries the name
of the tag. -/
inductive Mode where
  | markup
  | tag (literal : Option (List Char))
  | quoted (mark : QuoteMark) (literal : Option (List Char))
  | literal (name : List Char)
  deriving DecidableEq, Repr

/-- What a step reads: lexemes, the mode behind them and the remaining text. -/
structure Step where
  lexemes : List Lexeme
  mode : Mode
  rest : List Char

/-! ## Templates -/

/-- The text of a template up to its closing mark, and the text from there on. Closing braces that
match opening ones and braces in string literals do not count; `depth` is the number of braces
open, `mark` the quote of the string literal that the text stands in. -/
def cutExpression (depth : Nat) (mark : Option Char) : List Char → List Char × List Char
  | [] => ([], [])
  | '\\' :: next :: rest =>
    if mark.isSome then
      let (before, after) := cutExpression depth mark rest
      ('\\' :: next :: before, after)
    else
      let (before, after) := cutExpression depth mark (next :: rest)
      ('\\' :: before, after)
  | char :: rest =>
    match mark with
    | some quote =>
      let (before, after) := cutExpression depth (if char = quote then none else mark) rest
      (char :: before, after)
    | none =>
      if char = '\x7d' ∧ depth = 0 ∧ rest.head? = some '\x7d' then ([], char :: rest)
      else
        let depth := if char = '\x7b' then depth + 1 else if char = '\x7d' then depth - 1 else depth
        let mark := if char = '"' ∨ char = '\'' ∨ char = '\x60' then some char else none
        let (before, after) := cutExpression depth mark rest
        (char :: before, after)

/-- The lexemes of a template behind its opening mark, and the text behind the template. A
template that is not closed runs to the end. -/
def templateLexemes (chars : List Char) : List Lexeme × List Char :=
  let (blanks, rest) := cutWhile isMarkupBlank chars
  let (body, rest) := cutExpression 0 none rest
  let content := trimEndBy isMarkupBlank body
  let inner := (.templateOpen, templateOpening) :: lexeme .whitespace blanks
    ++ lexeme .textContent content ++ lexeme .whitespace (body.drop content.length)
  match dropPrefix? templateClosing rest with
  | some rest => (inner ++ [(.templateClose, templateClosing)], rest)
  | none => (inner, rest)

/-! ## Comments -/

/-- The lexemes of the text inside a pragma: blanks, the keyword and other words. -/
def pragmaLexemes (chars : List Char) : List Lexeme :=
  match chars with
  | [] => []
  | first :: rest =>
    if isMarkupBlank first then
      (.whitespace, first :: (cutWhile isMarkupBlank rest).1)
        :: pragmaLexemes (cutWhile isMarkupBlank rest).2
    else
      match _found : dropPrefix? pragmaWord (first :: rest) with
      | some after => (.pragmaKeyword, pragmaWord) :: pragmaLexemes after
      | none =>
        let keep := fun char => !isMarkupBlank char
        (.textContent, first :: (cutWhile keep rest).1) :: pragmaLexemes (cutWhile keep rest).2
termination_by chars.length
decreasing_by
  · have := length_cutWhile_le isMarkupBlank rest
    simp only [List.length_cons]
    omega
  · have whole := congrArg List.length (eq_append_of_dropPrefix? _found)
    simp only [List.length_append, List.length_cons, pragmaWord] at whole ⊢
    omega
  · have := length_cutWhile_le (fun char => !isMarkupBlank char) rest
    simp only [List.length_cons]
    omega

/-- The lexemes of a comment behind its opening mark, and the text behind the comment. A comment
that is not closed runs to the end. -/
def commentLexemes (chars : List Char) : List Lexeme × List Char :=
  let (body, rest) := cutWhere commentClosing.isPrefixOf chars
  let words :=
    if pragmaWord.isPrefixOf (trimStart body) then pragmaLexemes body else lexeme .textContent body
  let inner := (.commentOpen, commentOpening) :: words
  match dropPrefix? commentClosing rest with
  | some rest => (inner ++ [(.commentClose, commentClosing)], rest)
  | none => (inner, rest)

/-! ## Steps -/

/-- The name at the start of some text is that of a literal element. -/
def literalName? (tags : LiteralTags) (chars : List Char) : Option (List Char) :=
  let name := chars.takeWhile isNameContinue
  if tags.contains (String.ofList name) then some name else none

/-- A step between tags. -/
def markupStep (tags : LiteralTags) (first : Char) (rest : List Char) : Step :=
  match dropPrefix? commentOpening (first :: rest) with
  | some body =>
    let (lexemes, rest) := commentLexemes body
    ⟨lexemes, .markup, rest⟩
  | none =>
    match dropPrefix? templateOpening (first :: rest) with
    | some body =>
      let (lexemes, rest) := templateLexemes body
      ⟨lexemes, .markup, rest⟩
    | none =>
      if first = '<' ∧ rest.head? = some '/' ∧ startsName (rest.drop 1) then
        ⟨[(.closingOpenBracket, ['<', '/'])], .tag none, rest.drop 1⟩
      else if first = '<' ∧ startsName rest then
        ⟨[(.openBracket, ['<'])], .tag (literalName? tags rest), rest⟩
      else if isMarkupBlank first then
        let (blanks, rest) := cutWhile isMarkupBlank rest
        ⟨[(.whitespace, first :: blanks)], .markup, rest⟩
      else
        let (text, rest) := cutWhere
          (fun chars => beginsMarkup chars || chars.head?.any isMarkupBlank) rest
        ⟨[(.textContent, first :: text)], .markup, rest⟩

/-- Text inside a tag ends in front of these characters. -/
def endsTagText (chars : List Char) : Bool :=
  templateOpening.isPrefixOf chars
    || chars.head?.any fun char => isMarkupBlank char || isNameStart char || char = '>'
      || char = '=' || char = '"' || char = '\'' || char = '<' || char = '/'

/-- A step inside a tag. A bracket that opens another tag ends this one. -/
def tagStep (tags : LiteralTags) (literal : Option (List Char)) (first : Char)
    (rest : List Char) : Step :=
  if isMarkupBlank first then
    let (blanks, rest) := cutWhile isMarkupBlank rest
    ⟨[(.whitespace, first :: blanks)], .tag literal, rest⟩
  else if isNameStart first then
    let (name, rest) := cutWhile isNameContinue rest
    ⟨[(.identifier, first :: name)], .tag literal, rest⟩
  else if first = '/' ∧ rest.head? = some '>' then
    ⟨[(.selfCloseBracket, ['/', '>'])], .markup, rest.drop 1⟩
  else if first = '>' then
    ⟨[(.closeBracket, ['>'])], literal.elim .markup .literal, rest⟩
  else if first = '=' then ⟨[(.equals, ['='])], .tag literal, rest⟩
  else if first = '"' then ⟨[(.doubleQuote, ['"'])], .quoted .double literal, rest⟩
  else if first = '\'' then ⟨[(.singleQuote, ['\''])], .quoted .single literal, rest⟩
  else if first = '<' then markupStep tags first rest
  else
    match dropPrefix? templateOpening (first :: rest) with
    | some body =>
      let (lexemes, rest) := templateLexemes body
      ⟨lexemes, .tag literal, rest⟩
    | none =>
      let (text, rest) := cutWhere endsTagText rest
      ⟨[(.textContent, first :: text)], .tag literal, rest⟩

/-- A step inside a quoted value. -/
def quotedStep (mark : QuoteMark) (literal : Option (List Char)) (first : Char)
    (rest : List Char) : Step :=
  if first = mark.char then ⟨[(mark.kind, [mark.char])], .tag literal, rest⟩
  else
    match dropPrefix? templateOpening (first :: rest) with
    | some body =>
      let (lexemes, rest) := templateLexemes body
      ⟨lexemes, .quoted mark literal, rest⟩
    | none =>
      let (text, rest) := cutWhere
        (fun chars => templateOpening.isPrefixOf chars || chars.head? = some mark.char) rest
      ⟨[(.textContent, first :: text)], .quoted mark literal, rest⟩

/-- The text behind `name` in letters of either case, if some text begins with it. -/
def dropName? : List Char → List Char → Option (List Char)
  | [], chars => some chars
  | _ :: _, [] => none
  | expected :: name, first :: rest =>
    if expected.toLower = first.toLower then dropName? name rest else none

/-- The text begins with the close tag of a literal element. -/
def closesLiteral (name chars : List Char) : Bool :=
  match chars with
  | '<' :: '/' :: rest =>
    match dropName? name rest with
    | some rest => (rest.dropWhile isMarkupBlank).head? = some '>'
    | none => false
  | _ => false

/-- A step in the body of a literal element, all of which is one text. -/
def literalStep (tags : LiteralTags) (name : List Char) (first : Char) (rest : List Char) : Step :=
  if closesLiteral name (first :: rest) then markupStep tags first rest
  else
    let (body, rest) := cutWhere (closesLiteral name) rest
    ⟨[(.textContent, first :: body)], .markup, rest⟩

/-- A step in any mode. -/
def step (tags : LiteralTags) (mode : Mode) (first : Char) (rest : List Char) : Step :=
  match mode with
  | .markup => markupStep tags first rest
  | .tag literal => tagStep tags literal first rest
  | .quoted mark literal => quotedStep mark literal first rest
  | .literal name => literalStep tags name first rest

/-! ## Progress -/

theorem length_cutExpression_le (depth : Nat) (mark : Option Char) (chars : List Char) :
    (cutExpression depth mark chars).2.length ≤ chars.length := by
  fun_induction cutExpression depth mark chars <;> simp_all <;> omega

theorem length_dropPrefix?_le {pattern chars rest : List Char}
    (found : dropPrefix? pattern chars = some rest) :
    rest.length + pattern.length = chars.length := by
  have whole := congrArg List.length (eq_append_of_dropPrefix? found)
  simp only [List.length_append] at whole
  omega

theorem length_templateLexemes_le (chars : List Char) :
    (templateLexemes chars).2.length ≤ chars.length := by
  have blanks := length_cutWhile_le isMarkupBlank chars
  have body := length_cutExpression_le 0 none (cutWhile isMarkupBlank chars).2
  unfold templateLexemes
  simp only
  split
  next rest found =>
    have := length_dropPrefix?_le found
    simp only
    omega
  next => simp only; omega

theorem length_commentLexemes_le (chars : List Char) :
    (commentLexemes chars).2.length ≤ chars.length := by
  have body := length_cutWhere_le commentClosing.isPrefixOf chars
  unfold commentLexemes
  simp only
  split
  next rest found =>
    have := length_dropPrefix?_le found
    simp only
    omega
  next => simpa only using body

theorem markupStep_length_le (tags : LiteralTags) (first : Char) (rest : List Char) :
    (markupStep tags first rest).rest.length ≤ rest.length := by
  unfold markupStep
  split
  next body found =>
    have := length_commentLexemes_le body
    have := length_dropPrefix?_le found
    simp only [commentOpening, List.length_cons, List.length_nil] at *
    omega
  next =>
    split
    next body found =>
      have := length_templateLexemes_le body
      have := length_dropPrefix?_le found
      simp only [templateOpening, List.length_cons, List.length_nil] at *
      omega
    next =>
      split
      · simp
      · split
        · simp
        · split
          · exact length_cutWhile_le _ rest
          · exact length_cutWhere_le _ rest

theorem tagStep_length_le (tags : LiteralTags) (literal : Option (List Char)) (first : Char)
    (rest : List Char) : (tagStep tags literal first rest).rest.length ≤ rest.length := by
  unfold tagStep
  split
  · exact length_cutWhile_le _ rest
  · split
    · exact length_cutWhile_le _ rest
    · split
      · simp
      · split
        · simp
        · split
          · simp
          · split
            · simp
            · split
              · simp
              · split
                · exact markupStep_length_le tags first rest
                · split
                  next body found =>
                    have := length_templateLexemes_le body
                    have := length_dropPrefix?_le found
                    simp only [templateOpening, List.length_cons, List.length_nil] at *
                    omega
                  next => exact length_cutWhere_le _ rest

theorem quotedStep_length_le (mark : QuoteMark) (literal : Option (List Char)) (first : Char)
    (rest : List Char) : (quotedStep mark literal first rest).rest.length ≤ rest.length := by
  unfold quotedStep
  split
  · simp
  · split
    next body found =>
      have := length_templateLexemes_le body
      have := length_dropPrefix?_le found
      simp only [templateOpening, List.length_cons, List.length_nil] at *
      omega
    next => exact length_cutWhere_le _ rest

theorem literalStep_length_le (tags : LiteralTags) (name : List Char) (first : Char)
    (rest : List Char) : (literalStep tags name first rest).rest.length ≤ rest.length := by
  unfold literalStep
  split
  · exact markupStep_length_le tags first rest
  · exact length_cutWhere_le _ rest

/-- A step takes at least one character. -/
theorem step_length_lt (tags : LiteralTags) (mode : Mode) (first : Char) (rest : List Char) :
    (step tags mode first rest).rest.length < (first :: rest).length := by
  have := markupStep_length_le tags first rest
  simp only [List.length_cons]
  cases mode with
  | markup => simp only [step]; omega
  | tag literal =>
    have := tagStep_length_le tags literal first rest
    simp only [step]; omega
  | quoted mark literal =>
    have := quotedStep_length_le mark literal first rest
    simp only [step]; omega
  | literal name =>
    have := literalStep_length_le tags name first rest
    simp only [step]; omega

/-! ## All lexemes -/

/-- The lexemes of a text that starts in a mode. -/
def lexemes (tags : LiteralTags) (mode : Mode) (chars : List Char) : List Lexeme :=
  match chars with
  | [] => []
  | first :: rest =>
    (step tags mode first rest).lexemes
      ++ lexemes tags (step tags mode first rest).mode (step tags mode first rest).rest
termination_by chars.length
decreasing_by exact step_length_lt tags mode first rest

/-- The tokens of a source. -/
def tokenize (tags : LiteralTags) (source : String) : List Token :=
  Token.place 0 (lexemes tags .markup source.toList)

end PromptMarkup.Markup
