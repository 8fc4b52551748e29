/-
**Reading the inside of tags.**

Each reader takes the tokens from its first one on and hands back what it read, the problems it
met and the remaining tokens, of which there are fewer.

* `readTemplate`: a template;
* `readQuoted`: a quoted value, in which a `for` attribute has an iterator;
* `readAttribute`: a name with its value;
* `readOpenTag`, `readCloseTag`: tags.
-/

import PromptMarkup.Markup.Problem
import PromptMarkup.Markup.Token
import PromptMarkup.Markup.Tree

namespace PromptMarkup.Markup

/-- What a reader read: a node, the problems met and the remaining tokens. -/
structure Reading (α : Type) where
  node : α
  problems : List Diagnostic
  rest : List Token

/-! ## Templates -/

/-- The tokens behind one token of a kind, if it comes next, and the offset where it ends. -/
def skipKind (kind : TokenKind) (stop : Nat) (tokens : List Token) : Nat × List Token :=
  match tokens with
  | [] => (stop, [])
  | token :: rest => if token.kind = kind then (token.span.stop, rest) else (stop, tokens)

/-- A token of a kind, if it comes next, and the tokens behind it. -/
def takeKind (kind : TokenKind) (tokens : List Token) : Option Token × List Token :=
  match tokens with
  | [] => (none, [])
  | token :: rest => if token.kind = kind then (some token, rest) else (none, tokens)

theorem length_skipKind_le (kind : TokenKind) (stop : Nat) (tokens : List Token) :
    (skipKind kind stop tokens).2.length ≤ tokens.length := by
  unfold skipKind
  split
  · simp
  · split <;> simp

theorem length_takeKind_le (kind : TokenKind) (tokens : List Token) :
    (takeKind kind tokens).2.length ≤ tokens.length := by
  unfold takeKind
  split
  · simp
  · split <;> simp

/-- A template behind its opening mark. -/
def readTemplate (opening : Token) (tokens : List Token) : Reading Template :=
  let (stop, tokens) := skipKind .whitespace opening.span.stop tokens
  let (content, tokens) := takeKind .textContent tokens
  let stop := content.elim stop fun token => token.span.stop
  let expression := content.elim "" fun token => token.text
  let expressionSpan := content.elim ⟨stop, stop⟩ fun token => token.span
  let (stop, tokens) := skipKind .whitespace stop tokens
  let (closing, tokens) := takeKind .templateClose tokens
  let span := ⟨opening.span.start, closing.elim stop fun token => token.span.stop⟩
  { node := ⟨expression, expressionSpan, span⟩
    problems :=
      (if closing.isNone then [Problem.unclosedTemplate.report span] else [])
        ++ if expression.isEmpty then [Problem.emptyTemplate.report span] else []
    rest := tokens }

theorem readTemplate_length_le (opening : Token) (tokens : List Token) :
    (readTemplate opening tokens).rest.length ≤ tokens.length := by
  have first := length_skipKind_le .whitespace opening.span.stop tokens
  have second := length_takeKind_le .textContent
    (skipKind .whitespace opening.span.stop tokens).2
  simp only [readTemplate]
  exact Nat.le_trans (length_takeKind_le _ _)
    (Nat.le_trans (length_skipKind_le _ _ _) (Nat.le_trans second first))

/-! ## Quoted values -/

/-- The characters that begin the name of an iterator. -/
def isIteratorStart (char : Char) : Bool := char.isAlpha || char = '_' || char = '$'

/-- The characters that continue the name of an iterator. -/
def isIteratorContinue (char : Char) : Bool := char.isAlphanum || char = '_' || char = '$'

/-- The iterator that a value names: a name, the word `in` and an expression with blanks between
them. -/
def forIterator? (quoted : Quoted) : Option ForIterator := do
  let chars := quoted.value.toList
  let (leading, rest) := Text.cutWhile Text.isBlank chars
  guard (rest.head?.any isIteratorStart)
  let (name, rest) := Text.cutWhile isIteratorContinue rest
  let (before, rest) := Text.cutWhile Text.isBlank rest
  guard (!before.isEmpty)
  let rest ← Text.dropPrefix? ['i', 'n'] rest
  let (after, rest) := Text.cutWhile Text.isBlank rest
  guard (!after.isEmpty && !rest.isEmpty)
  let collection := Text.trimEnd rest
  let nameStart := quoted.valueSpan.start + Text.byteLength leading
  let nameStop := nameStart + Text.byteLength name
  let start := nameStop + Text.byteLength before + 2 + Text.byteLength after
  return ⟨String.ofList name, ⟨nameStart, nameStop⟩, String.ofList collection,
    ⟨start, start + Text.byteLength collection⟩, quoted.span⟩

/-- The parts of a quoted value, and where it ends. -/
structure QuotedParts where
  parts : List QuotedPart
  stop : Nat
  closed : Bool

/-- The parts of a quoted value up to its closing quote; `stop` is where the value read so far
ends. A token that does not belong to a value ends it too. -/
def readParts (quote : TokenKind) (stop : Nat) (tokens : List Token) : Reading QuotedParts :=
  match tokens with
  | [] => ⟨⟨[], stop, false⟩, [], []⟩
  | token :: rest =>
    if token.kind = quote then ⟨⟨[], token.span.stop, true⟩, [], rest⟩
    else if token.kind = .templateOpen then
      let template := readTemplate token rest
      let others := readParts quote template.node.span.stop template.rest
      { node := { others.node with parts := .template template.node :: others.node.parts }
        problems := template.problems ++ others.problems
        rest := others.rest }
    else if token.kind = .textContent ∨ token.kind = .whitespace then
      let others := readParts quote token.span.stop rest
      { others with
        node := { others.node with parts := .text ⟨token.text, token.span⟩ :: others.node.parts } }
    else ⟨⟨[], stop, false⟩, [], tokens⟩
termination_by tokens.length
decreasing_by
  · have := readTemplate_length_le token rest
    simp only [List.length_cons]
    omega
  · simp

theorem readParts_length_le (quote : TokenKind) (stop : Nat) (tokens : List Token) :
    (readParts quote stop tokens).rest.length ≤ tokens.length := by
  fun_induction readParts quote stop tokens with
  | case1 => simp
  | case2 => simp
  | case3 stop token rest _ _ template others ih =>
    have := readTemplate_length_le token rest
    simp only [List.length_cons]
    exact Nat.le_succ_of_le (Nat.le_trans ih this)
  | case4 stop token rest _ _ _ others ih =>
    simp only [List.length_cons]
    exact Nat.le_succ_of_le ih
  | case5 => simp

/-- A quoted value behind its opening quote. -/
def readQuoted (key : String) (opening : Token) (tokens : List Token) :
    Reading AttributeValue :=
  let reading := readParts opening.kind opening.span.stop tokens
  let parts := reading.node.parts
  let span := ⟨opening.span.start, reading.node.stop⟩
  let problems := reading.problems
    ++ if reading.node.closed then [] else [(Problem.missingQuote key).report span]
  let hasTemplate := parts.any fun
    | .template _ => true
    | .text _ => false
  if hasTemplate then ⟨.quotedTemplate ⟨parts, span⟩, problems, reading.rest⟩
  else
    let texts := parts.map fun
      | .text node => node.value
      | .template _ => ""
    let valueStart := opening.span.stop
    let valueStop := if reading.node.closed then reading.node.stop - 1 else reading.node.stop
    let quoted := ⟨String.join texts, ⟨valueStart, max valueStop valueStart⟩, span⟩
    if Text.equalIgnoringCase key "for" then
      match forIterator? quoted with
      | some iterator => ⟨.forIterator iterator, problems, reading.rest⟩
      | none =>
        ⟨.quoted quoted, problems ++ [Problem.notAnIterator.report quoted.valueSpan],
          reading.rest⟩
    else ⟨.quoted quoted, problems, reading.rest⟩

theorem readQuoted_length_le (key : String) (opening : Token) (tokens : List Token) :
    (readQuoted key opening tokens).rest.length ≤ tokens.length := by
  have := readParts_length_le opening.kind opening.span.stop tokens
  unfold readQuoted
  simp only
  split
  · exact this
  · split
    · split <;> exact this
    · exact this

/-! ## Attributes -/

/-- The value behind the equals sign of an attribute, if there is one; `named` is the range of the
attribute up to that sign. -/
def readValue (key : String) (named : Span) (tokens : List Token) :
    Reading (Option AttributeValue) :=
  match tokens with
  | [] => ⟨none, [(Problem.missingValue key).report named], []⟩
  | token :: rest =>
    match token.kind with
    | .doubleQuote | .singleQuote =>
      let value := readQuoted key token rest
      ⟨some value.node, value.problems, value.rest⟩
    | .templateOpen =>
      let template := readTemplate token rest
      ⟨some (.template template.node), template.problems, template.rest⟩
    | .identifier | .textContent =>
      ⟨some (.quoted ⟨token.text, token.span, token.span⟩),
        [(Problem.unquotedValue key).report token.span], rest⟩
    | _ => ⟨none, [(Problem.missingValue key).report named], tokens⟩

theorem readValue_length_le (key : String) (named : Span) (tokens : List Token) :
    (readValue key named tokens).rest.length ≤ tokens.length := by
  unfold readValue
  split
  · simp
  next token rest =>
    split
    · exact Nat.le_succ_of_le (readQuoted_length_le key token rest)
    · exact Nat.le_succ_of_le (readQuoted_length_le key token rest)
    · exact Nat.le_succ_of_le (readTemplate_length_le token rest)
    · simp
    · simp
    · simp

/-- An attribute whose key has been taken. -/
def readAttribute (key : Token) (tokens : List Token) : Reading Attribute :=
  match takeKind .equals (skipKind .whitespace 0 tokens).2 with
  | (none, _) => ⟨⟨key.text, key.span, none, key.span⟩, [], tokens⟩
  | (some equals, tokens) =>
    let named := ⟨key.span.start, equals.span.stop⟩
    let value := readValue key.text named (skipKind .whitespace 0 tokens).2
    let stop := value.node.elim equals.span.stop fun written => written.span.stop
    ⟨⟨key.text, key.span, value.node, ⟨key.span.start, stop⟩⟩, value.problems, value.rest⟩

theorem readAttribute_length_le (key : Token) (tokens : List Token) :
    (readAttribute key tokens).rest.length ≤ tokens.length := by
  have blanks := length_skipKind_le .whitespace 0 tokens
  have equals := length_takeKind_le .equals (skipKind .whitespace 0 tokens).2
  unfold readAttribute
  split
  · simp
  next sign after found =>
    simp only [found] at equals
    have value := readValue_length_le key.text ⟨key.span.start, sign.span.stop⟩
      (skipKind .whitespace 0 after).2
    have more := length_skipKind_le .whitespace 0 after
    simp only
    omega

/-! ## Tags -/

/-- How an open tag ends. -/
inductive Terminator where
  /-- The contents of the element follow. -/
  | close
  /-- The tag closes itself. -/
  | selfClose
  /-- The tag breaks off. -/
  | missing
  deriving DecidableEq, Repr

/-- An open tag being read: its attributes, where it ends and how. -/
structure TagInside where
  attributes : List Attribute
  stop : Nat
  terminator : Terminator

/-- The tokens behind a stray token in a tag. A stray quote takes everything up to the next quote
of its kind, so that the rest of the tag is read as it would be. -/
def skipStray (kind : TokenKind) (tokens : List Token) : List Token :=
  if kind = .doubleQuote ∨ kind = .singleQuote then
    (tokens.dropWhile fun token => token.kind ≠ kind).drop 1
  else tokens

theorem length_skipStray_le (kind : TokenKind) (tokens : List Token) :
    (skipStray kind tokens).length ≤ tokens.length := by
  unfold skipStray
  split
  · have := (List.dropWhile_suffix (l := tokens) fun token => token.kind ≠ kind).length_le
    simp only [List.length_drop]
    omega
  · exact Nat.le_refl _

/-- The inside of an open tag with a name; `stop` is where the tag read so far ends. -/
def readInside (name : String) (stop : Nat) (tokens : List Token) : Reading TagInside :=
  match tokens with
  | [] => ⟨⟨[], stop, .missing⟩, [], []⟩
  | token :: rest =>
    match token.kind with
    | .whitespace => readInside name token.span.stop rest
    | .identifier =>
      let first := readAttribute token rest
      let others := readInside name first.node.span.stop first.rest
      { node := { others.node with attributes := first.node :: others.node.attributes }
        problems := first.problems ++ others.problems
        rest := others.rest }
    | .closeBracket => ⟨⟨[], stop, .close⟩, [], rest⟩
    | .selfCloseBracket => ⟨⟨[], stop, .selfClose⟩, [], rest⟩
    | .templateOpen =>
      let template := readTemplate token rest
      let others := readInside name template.node.span.stop template.rest
      { others with
        problems := template.problems ++ Problem.unboundTemplate.report template.node.span
          :: others.problems }
    | .textContent | .equals | .doubleQuote | .singleQuote =>
      let others := readInside name token.span.stop (skipStray token.kind rest)
      { others with
        problems := (Problem.unexpectedInTag token.text name).report token.span
          :: others.problems }
    | _ => ⟨⟨[], stop, .missing⟩, [], tokens⟩
termination_by tokens.length
decreasing_by
  · simp
  · have := readAttribute_length_le token rest
    simp only [List.length_cons]
    omega
  · have := readTemplate_length_le token rest
    simp only [List.length_cons]
    omega
  all_goals
    have := length_skipStray_le token.kind rest
    simp only [List.length_cons]
    omega

/-- An open tag behind its opening bracket. -/
def readOpenTag (bracket : Token) (tokens : List Token) : Reading (OpenTag × Terminator) :=
  let (name, tokens) := takeKind .identifier tokens
  let nameText := name.elim "" fun token => token.text
  let nameSpan := name.elim ⟨bracket.span.start + 1, bracket.span.start + 1⟩ fun token => token.span
  let inside := readInside nameText nameSpan.stop tokens
  let span := ⟨bracket.span.start, inside.node.stop⟩
  ⟨(⟨nameText, nameSpan, inside.node.attributes, span⟩, inside.node.terminator),
    inside.problems, inside.rest⟩

/-- A close tag behind its opening bracket. -/
def readCloseTag (bracket : Token) (tokens : List Token) : Reading CloseTag :=
  let (name, tokens) := takeKind .identifier tokens
  let nameText := name.elim "" fun token => token.text
  let nameSpan := name.elim ⟨bracket.span.start + 2, bracket.span.start + 2⟩ fun token => token.span
  let (stop, tokens) := skipKind .whitespace nameSpan.stop tokens
  let (closing, tokens) := takeKind .closeBracket tokens
  let span := ⟨bracket.span.start, closing.elim stop fun token => token.span.stop⟩
  ⟨⟨nameText, nameSpan, span⟩,
    if closing.isNone then [(Problem.unterminatedClose nameText).report span] else [], tokens⟩

end PromptMarkup.Markup
