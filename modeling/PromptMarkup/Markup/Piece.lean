/-
**Pieces of markup.**

Before elements are put together, the tokens of a document fall into pieces: tags, literal
elements, templates, comments and runs of text. Which piece comes next does not depend on the
elements that are open.

* `Piece`: a piece with its problems, its source text and its range;
* `readPiece`: the piece that the next tokens make up;
* `pieces`: all pieces of a document.
-/

import PromptMarkup.Markup.Attribute
import PromptMarkup.Markup.Name

namespace PromptMarkup.Markup

/-- What a piece is. -/
inductive PieceForm where
  | opening (tag : OpenTag) (terminator : Terminator)
  | closing (tag : CloseTag)
  /-- A literal element, up to its close tag if it has one. -/
  | literal (tag : OpenTag) (body : TextNode) (closing : Option CloseTag)
  /-- Content without elements in it. -/
  | leaf (content : Content)

/-- A piece of a document: what it is, the problems in it, and all of its source. -/
structure Piece where
  form : PieceForm
  problems : List Diagnostic
  source : String
  span : Span

/-! ## Texts and comments -/

/-- A token that begins a piece other than a run of text. -/
def beginsPiece (kind : TokenKind) : Bool :=
  kind = .openBracket || kind = .closingOpenBracket || kind = .templateOpen || kind = .commentOpen

/-- The texts of some tokens in one. -/
def joinTexts (tokens : List Token) : String := String.join (tokens.map Token.text)

/-- The offset where some tokens end; `start` when there are none. -/
def stopOf (start : Nat) (tokens : List Token) : Nat :=
  tokens.getLast?.elim start fun token => token.span.stop

/-- A run of text from its first token on. -/
def readText (first : Token) (tokens : List Token) : Reading TextNode :=
  let run := first :: tokens.takeWhile fun token => !beginsPiece token.kind
  { node := ⟨joinTexts run, ⟨first.span.start, stopOf first.span.stop run⟩⟩
    problems := []
    rest := tokens.dropWhile fun token => !beginsPiece token.kind }

/-- A comment behind its opening mark. A comment with the keyword is a pragma: the first of its
other words is the directive. -/
def readComment (opening : Token) (tokens : List Token) : Reading Content :=
  let inside := tokens.takeWhile fun token => token.kind ≠ .commentClose
  let rest := tokens.dropWhile fun token => token.kind ≠ .commentClose
  let span := ⟨opening.span.start, stopOf (stopOf opening.span.stop inside) (rest.take 1)⟩
  let unclosed := if rest.isEmpty then [Problem.unclosedComment.report span] else []
  if inside.any fun token => token.kind = .pragmaKeyword then
    let words := (inside.filter fun token => token.kind = .textContent).map Token.text
    let directive := words.headD ""
    { node := .pragma ⟨directive, words.drop 1, span⟩
      problems := unclosed
        ++ if directive.isEmpty then [Problem.emptyPragma.report span] else []
      rest := rest.drop 1 }
  else ⟨.comment ⟨joinTexts inside, span⟩, unclosed, rest.drop 1⟩

/-! ## Elements -/

/-- The body and the close tag of a literal element whose open tag ends at `start`. -/
def readLiteral (tag : OpenTag) (start : Nat) (tokens : List Token) : Reading PieceForm :=
  let (text, tokens) := takeKind .textContent tokens
  let body := text.elim ⟨"", ⟨start, start⟩⟩ fun token => ⟨token.text, token.span⟩
  match takeKind .closingOpenBracket tokens with
  | (some bracket, tokens) =>
    let closing := readCloseTag bracket tokens
    ⟨.literal tag body (some closing.node), closing.problems, closing.rest⟩
  | (none, tokens) => ⟨.literal tag body none, [], tokens⟩

/-- An open tag behind its bracket, with all of a literal element. -/
def readOpening (tags : LiteralTags) (bracket : Token) (tokens : List Token) :
    Reading PieceForm :=
  let opening := readOpenTag bracket tokens
  let (tag, terminator) := opening.node
  if terminator = .close ∧ tags.contains tag.name then
    let taken := tokens.take (tokens.length - opening.rest.length)
    let literal := readLiteral tag (stopOf bracket.span.stop taken) opening.rest
    { literal with problems := opening.problems ++ literal.problems }
  else ⟨.opening tag terminator, opening.problems, opening.rest⟩

/-- The piece that the tokens from `first` on begin with. -/
def readPiece (tags : LiteralTags) (first : Token) (tokens : List Token) : Reading PieceForm :=
  match first.kind with
  | .openBracket => readOpening tags first tokens
  | .closingOpenBracket =>
    let closing := readCloseTag first tokens
    ⟨.closing closing.node, closing.problems, closing.rest⟩
  | .templateOpen =>
    let template := readTemplate first tokens
    ⟨.leaf (.template template.node), template.problems, template.rest⟩
  | .commentOpen =>
    let comment := readComment first tokens
    ⟨.leaf comment.node, comment.problems, comment.rest⟩
  | _ =>
    let text := readText first tokens
    ⟨.leaf (.text text.node), text.problems, text.rest⟩

/-! ## Progress -/

theorem readInside_length_le (name : String) (stop : Nat) (tokens : List Token) :
    (readInside name stop tokens).rest.length ≤ tokens.length := by
  fun_induction readInside name stop tokens with
  | case1 => simp
  | case2 stop token rest _ ih => simp only [List.length_cons]; omega
  | case3 stop token rest _ first others ih =>
    have := readAttribute_length_le token rest
    exact Nat.le_succ_of_le (Nat.le_trans ih this)
  | case4 => simp
  | case5 => simp
  | case6 stop token rest _ template others ih =>
    have := readTemplate_length_le token rest
    exact Nat.le_succ_of_le (Nat.le_trans ih this)
  | case7 stop token rest _ others ih =>
    have := length_skipStray_le token.kind rest
    exact Nat.le_succ_of_le (Nat.le_trans ih this)
  | case8 stop token rest _ others ih =>
    have := length_skipStray_le token.kind rest
    exact Nat.le_succ_of_le (Nat.le_trans ih this)
  | case9 stop token rest _ others ih =>
    have := length_skipStray_le token.kind rest
    exact Nat.le_succ_of_le (Nat.le_trans ih this)
  | case10 stop token rest _ others ih =>
    have := length_skipStray_le token.kind rest
    exact Nat.le_succ_of_le (Nat.le_trans ih this)
  | case11 => simp

theorem readOpenTag_length_le (bracket : Token) (tokens : List Token) :
    (readOpenTag bracket tokens).rest.length ≤ tokens.length :=
  Nat.le_trans (readInside_length_le _ _ _) (length_takeKind_le .identifier tokens)

theorem readCloseTag_length_le (bracket : Token) (tokens : List Token) :
    (readCloseTag bracket tokens).rest.length ≤ tokens.length :=
  Nat.le_trans (length_takeKind_le _ _)
    (Nat.le_trans (length_skipKind_le _ _ _) (length_takeKind_le .identifier tokens))

theorem readLiteral_length_le (tag : OpenTag) (start : Nat) (tokens : List Token) :
    (readLiteral tag start tokens).rest.length ≤ tokens.length := by
  have text := length_takeKind_le .textContent tokens
  have bracket := length_takeKind_le .closingOpenBracket (takeKind .textContent tokens).2
  unfold readLiteral
  simp only
  split
  next sign after found =>
    simp only [found] at bracket
    have := readCloseTag_length_le sign after
    simp only
    omega
  next after found =>
    simp only [found] at bracket
    simp only
    omega

theorem readOpening_length_le (tags : LiteralTags) (bracket : Token) (tokens : List Token) :
    (readOpening tags bracket tokens).rest.length ≤ tokens.length := by
  have opening := readOpenTag_length_le bracket tokens
  unfold readOpening
  simp only
  split
  · exact Nat.le_trans (readLiteral_length_le _ _ _) opening
  · exact opening

theorem readPiece_length_le (tags : LiteralTags) (first : Token) (tokens : List Token) :
    (readPiece tags first tokens).rest.length ≤ tokens.length := by
  unfold readPiece
  split
  · exact readOpening_length_le tags first tokens
  · exact readCloseTag_length_le first tokens
  · exact readTemplate_length_le first tokens
  · have := (List.dropWhile_suffix (l := tokens) fun token => token.kind ≠ .commentClose).length_le
    simp only [readComment]
    split <;> simp only [List.length_drop] <;> omega
  · exact (List.dropWhile_suffix (l := tokens) fun token => !beginsPiece token.kind).length_le

/-! ## All pieces -/

/-- The pieces that some tokens make up. -/
def pieces (tags : LiteralTags) (tokens : List Token) : List Piece :=
  match tokens with
  | [] => []
  | first :: rest =>
    let reading := readPiece tags first rest
    let taken := first :: rest.take (rest.length - reading.rest.length)
    { form := reading.node
      problems := reading.problems
      source := joinTexts taken
      span := ⟨first.span.start, stopOf first.span.stop taken⟩ } :: pieces tags reading.rest
termination_by tokens.length
decreasing_by
  have := readPiece_length_le tags first rest
  simp only [List.length_cons]
  omega

end PromptMarkup.Markup
