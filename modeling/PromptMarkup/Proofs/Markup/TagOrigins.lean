/-
**Where the lexer meets the tags of a tree.**

The tags of an element stand where the lexer meets tags of their names. An open tag ends for the
parser where it ends for the lexer, and the body of a literal element is a text that the lexer reads
up to the close tag.

* `exists_tagAt_of_suffix`: a bracket of a tag among the tokens;
* `CloseTag.IsRead.tagAt`, `OpenTag.Begins.tagAt`: the tags of an element that is not read as a
  literal one;
* `LiteralAt`, `OpenTag.IsRead.literalAt`: an element that is read as a literal one.
-/

import PromptMarkup.Proofs.Markup.LiteralLexemes
import PromptMarkup.Proofs.Markup.NodeOrigins

namespace PromptMarkup.Markup

open Text

variable {tags : LiteralTags} {source : String}

/-! ### Tags of the tree -/

/-- The offset behind a bracket that is read behind some lexemes. -/
def nameStart (read : List Lexeme) (kind : TokenKind) : Nat :=
  byteLength (spelling read ++ tagMark kind)

/-- **At a bracket of a tag among the tokens** the lexer meets the tag. -/
theorem exists_tagAt_of_suffix {bracket : Token} {rest : List Token}
    (suffix : bracket :: rest <:+ tokenize tags source) (tag : bracket.kind ∈ tagKinds) :
    ∃ read name behind, TagAt tags source.toList read bracket.kind name behind ∧
      bracket.span.start = byteLength (spelling read) ∧
      rest = Token.place (nameStart read bracket.kind) ((.identifier, name) ::
        lexemes tags (.tag (keptBehind tags bracket.kind name)) behind) := by
  obtain ⟨read, _ | ⟨⟨kind, mark⟩, back⟩, cut, same⟩ := exists_place_of_suffix suffix
  · cases same
  · obtain ⟨rfl, rfl⟩ := List.cons.inj same
    obtain ⟨name, behind, here, rfl⟩ := exists_tagAt cut tag
    obtain rfl : mark = tagMark kind := by
      have lexed := here.lexed
      rw [cut] at lexed
      exact (Prod.mk.inj (List.cons.inj (List.append_cancel_left lexed)).1).2
    refine ⟨read, name, behind, here, Nat.zero_add _, ?_⟩
    simp only [nameStart, byteLength_append, Nat.zero_add]

theorem readOpenTag_place (bracket : Token) (offset : Nat) (name : List Char)
    (more : List Lexeme) :
    (readOpenTag bracket (Token.place offset ((.identifier, name) :: more))).node.1.name =
        String.ofList name ∧
      (readOpenTag bracket (Token.place offset ((.identifier, name) :: more))).node.1.nameSpan =
        ⟨offset, offset + byteLength name⟩ :=
  ⟨rfl, rfl⟩

theorem readCloseTag_place (bracket : Token) (offset : Nat) (name : List Char)
    (more : List Lexeme) :
    (readCloseTag bracket (Token.place offset ((.identifier, name) :: more))).node.name =
        String.ofList name ∧
      (readCloseTag bracket (Token.place offset ((.identifier, name) :: more))).node.nameSpan =
        ⟨offset, offset + byteLength name⟩ :=
  ⟨rfl, rfl⟩

/-- **A close tag of the tree** is a tag that the lexer meets. -/
theorem CloseTag.IsRead.tagAt {close : CloseTag} (read : close.IsRead tags source) :
    ∃ front behind, TagAt tags source.toList front .closingOpenBracket close.name.toList behind ∧
      close.span.start = byteLength (spelling front) ∧
      close.nameSpan = ⟨nameStart front .closingOpenBracket,
        nameStart front .closingOpenBracket + byteLength close.name.toList⟩ := by
  obtain ⟨bracket, rest, suffix, kind, rfl⟩ := read
  obtain ⟨front, name, behind, here, start, rfl⟩ :=
    exists_tagAt_of_suffix suffix (kind ▸ by decide)
  rw [kind] at here ⊢
  obtain ⟨text, place⟩ := readCloseTag_place bracket (nameStart front .closingOpenBracket) name
    (lexemes tags (.tag (keptBehind tags .closingOpenBracket name)) behind)
  rw [place, text, String.toList_ofList]
  exact ⟨front, behind, here, start, rfl⟩

/-! ### Where an open tag ends -/

theorem endOf_of_leave {offset : Nat} {all : List Lexeme} {front middle : List Token}
    (whole : Token.place offset all = front ++ middle)
    (others : ∀ token ∈ front, token.kind ∉ endingKinds)
    (leaves : ∀ token ∈ middle.head?, token.kind ∈ leavingKinds) :
    ∀ item ∈ endOf all, item.1 ≠ .closeBracket := by
  induction front generalizing offset all with
  | nil =>
    cases all with
    | nil => exact fun item absurd => by cases absurd
    | cons item more =>
      obtain ⟨kind, text⟩ := item
      have leaving : kind ∈ leavingKinds := leaves _ (by rw [← List.nil_append middle, ← whole]; rfl)
      rw [endOf_cons (List.mem_cons_of_mem _ leaving)]
      rintro _ ⟨⟩
      exact ne_of_mem_kinds leaving (by decide)
  | cons token front ih =>
    cases all with
    | nil => cases whole
    | cons item more =>
      obtain ⟨kind, text⟩ := item
      obtain ⟨rfl, later⟩ := List.cons.inj whole
      obtain ⟨here, behind⟩ := List.forall_mem_cons.mp others
      have plain : ∀ item ∈ [(kind, text)], item.1 ∉ endingKinds :=
        List.forall_mem_singleton.mpr here
      rw [← List.singleton_append, endOf_append plain]
      exact ih later behind

theorem exists_lexeme_of_place {offset : Nat} {all : List Lexeme} {front rest : List Token}
    {token : Token} (whole : Token.place offset all = front ++ token :: rest)
    (others : ∀ token ∈ front, token.kind ∉ endingKinds) :
    ∃ read item back, all = read ++ item :: back ∧ item.1 = token.kind ∧
      (∀ item ∈ read, item.1 ∉ endingKinds) ∧
      rest = Token.place (offset + byteLength (spelling (read ++ [item]))) back := by
  induction front generalizing offset all with
  | nil =>
    cases all with
    | nil => cases whole
    | cons item more =>
      obtain ⟨kind, text⟩ := item
      obtain ⟨rfl, rfl⟩ := List.cons.inj whole
      refine ⟨[], (kind, text), more, rfl, rfl, List.forall_mem_nil _, ?_⟩
      simp
  | cons first front ih =>
    cases all with
    | nil => cases whole
    | cons item more =>
      obtain ⟨kind, text⟩ := item
      obtain ⟨rfl, later⟩ := List.cons.inj whole
      obtain ⟨here, behind⟩ := List.forall_mem_cons.mp others
      obtain ⟨read, last, back, rfl, same, plain, rfl⟩ := ih later behind
      refine ⟨(kind, text) :: read, last, back, rfl, same,
        List.forall_mem_cons.mpr ⟨here, plain⟩, ?_⟩
      simp [Nat.add_assoc]

/-- **An open tag ends for the parser where it ends for the lexer.** -/
theorem readOpenTag_tagAt {bracket : Token} {rest : List Token}
    (suffix : bracket :: rest <:+ tokenize tags source) (kind : bracket.kind = .openBracket) :
    ∃ read behind front middle,
      TagAt tags source.toList read .openBracket (readOpenTag bracket rest).node.1.name.toList
        behind ∧
      bracket.span.start = byteLength (spelling read) ∧
      (readOpenTag bracket rest).node.1.nameSpan = ⟨nameStart read .openBracket,
        nameStart read .openBracket + byteLength (readOpenTag bracket rest).node.1.name.toList⟩ ∧
      Token.place
        (nameStart read .openBracket + byteLength (readOpenTag bracket rest).node.1.name.toList)
        (lexemes tags (.tag (tags.kept (readOpenTag bracket rest).node.1.name)) behind) =
          front ++ middle ∧
      (∀ token ∈ front, token.kind ∉ endingKinds) ∧
      EndsTag middle (readOpenTag bracket rest).rest (readOpenTag bracket rest).node.2 := by
  obtain ⟨read, name, behind, here, start, rfl⟩ := exists_tagAt_of_suffix suffix (kind ▸ by decide)
  rw [kind] at here ⊢
  obtain ⟨text, place⟩ := readOpenTag_place bracket (nameStart read .openBracket) name
    (lexemes tags (.tag (keptBehind tags .openBracket name)) behind)
  have kept : keptBehind tags .openBracket name = tags.kept (String.ofList name) := rfl
  have inside : InTag tags source (tags.kept (String.ofList name)) (Token.place
      (nameStart read .openBracket + byteLength name)
      (lexemes tags (.tag (keptBehind tags .openBracket name)) behind)) := by
    refine ⟨spelling read ++ tagMark .openBracket ++ name, _, behind, .inl rfl, ?_, ?_⟩
    · rw [here.whole]
      simp only [List.append_assoc]
    · rw [byteLength_append, kept]
      rfl
  obtain ⟨middle, ⟨⟨front, taken, others⟩, _⟩, ends⟩ := readInside_endsTag (String.ofList name)
    (nameStart read .openBracket + byteLength name) inside
  rw [place, text, String.toList_ofList]
  exact ⟨read, behind, front, middle, here, start, rfl, taken, others, ends⟩

/-- **The open tag of an element that is not read as a literal one** is a tag that the lexer meets.
If its name is that of a literal element, it ends without its closing bracket. -/
theorem OpenTag.Begins.tagAt {tag : OpenTag} {terminator : Terminator}
    (begins : tag.Begins tags source terminator) :
    ∃ read behind, TagAt tags source.toList read .openBracket tag.name.toList behind ∧
      tag.span.start = byteLength (spelling read) ∧
      tag.nameSpan = ⟨nameStart read .openBracket,
        nameStart read .openBracket + byteLength tag.name.toList⟩ ∧
      (tags.contains tag.name = true → terminator ≠ .close ∧
        ∀ item ∈ endOf (lexemes tags (.tag (tags.kept tag.name)) behind),
          item.1 ≠ .closeBracket) := by
  obtain ⟨bracket, rest, suffix, kind, form⟩ := begins
  obtain ⟨read, behind, front, middle, here, start, place, whole, others, ends⟩ :=
    readOpenTag_tagAt suffix kind
  unfold readOpening at form
  simp only at form
  split at form
  next =>
    unfold readLiteral at form
    simp only at form
    split at form
    · cases form
    · cases form
  next plain =>
    obtain ⟨rfl, rfl⟩ := PieceForm.opening.inj form
    refine ⟨read, behind, here, start, place, fun literal => ?_⟩
    have unclosed : (readOpenTag bracket rest).node.2 ≠ .close := fun closed => plain ⟨closed, literal⟩
    refine ⟨unclosed, ?_⟩
    generalize (readOpenTag bracket rest).node.2 = terminator at ends unclosed
    cases ends with
    | close => exact absurd rfl unclosed
    | leave _ leaves => exact endOf_of_leave whole others leaves

/-- The lexer meets a literal element with a body up to its close tag or to the end. -/
structure LiteralAt (tags : LiteralTags) (chars : List Char) (read inside : List Lexeme)
    (name text after : List Char) : Prop where
  tag : TagAt tags chars read .openBracket name (spelling inside ++ '>' :: (text ++ after))
  others : ∀ item ∈ inside, item.1 ∉ endingKinds
  closed : lexemes tags (.tag (some name)) (spelling inside ++ '>' :: (text ++ after)) =
    inside ++ (.closeBracket, ['>']) :: lexemes tags (.literal name) (text ++ after)
  opened : IsOpen name text after

/-- The close tag that stands behind some lexemes and a text, or none. -/
inductive LiteralEnd (name : List Char) (start : Nat) : List Char → Option CloseTag → Prop
  | none : LiteralEnd name start [] none
  | some {close : CloseTag} {written blanks : List Char} (more : List Char) :
      written.map Char.toLower = name.map Char.toLower → AreBlank blanks →
      close.name = String.ofList written →
      close.nameSpan = ⟨start + 2, start + 2 + byteLength written⟩ →
      LiteralEnd name start
        (tagMark .closingOpenBracket ++ (written ++ (blanks ++ '>' :: more))) (some close)

/-- **The close tag of a literal element** is read where the lexer finds it. -/
theorem readLiteral_end {tag result : OpenTag} {body : TextNode} {closing : Option CloseTag}
    {name text after : List Char} {start offset : Nat} (proper : isName name = true)
    (ends : after = [] ∨ closesLiteral name after = true)
    (form : (readLiteral tag start (Token.place offset
      (lexeme .textContent text ++ lexemes tags .markup after))).node = .literal result body closing) :
    result = tag ∧ body.value = String.ofList text ∧
      LiteralEnd name (offset + byteLength text) after closing := by
  have body : ∀ behind : List Lexeme, (∀ item ∈ behind.head?, item.1 ≠ .textContent) →
      ∃ token, takeKind .textContent (Token.place offset (lexeme .textContent text ++ behind)) =
        (token, Token.place (offset + byteLength text) behind) ∧
          (token.elim (⟨"", ⟨start, start⟩⟩ : TextNode) fun token => ⟨token.text, token.span⟩).value =
            String.ofList text := by
    intro behind differs
    obtain ⟨token, taken, _, content, _⟩ := takeKind_place .textContent offset fun _ => differs
    refine ⟨token, taken, ?_⟩
    rw [← content]
    cases token <;> rfl
  unfold readLiteral at form
  rcases ends with rfl | closes
  · rw [lexemes] at form
    obtain ⟨token, taken, value⟩ := body [] fun _ absurd => by cases absurd
    simp only [taken] at form
    cases form
    exact ⟨rfl, value, .none⟩
  · obtain ⟨_, ⟨written, blanks, rfl, same, blank⟩, more, rfl⟩ := closesLiteral_iff.mp closes
    have named : isName written = true := (isName_congr same).trans proper
    have whole : '<' :: '/' :: (written ++ (blanks ++ ['>'])) ++ more =
        tagMark .closingOpenBracket ++ (written ++ (blanks ++ '>' :: more)) := by
      simp [tagMark]
    rw [whole, lexemes_tagMark (.inl rfl) (by decide) named (blank.ends_name more)] at form
    rw [whole]
    generalize lexemes tags (.tag (keptBehind tags .closingOpenBracket written))
      (blanks ++ '>' :: more) = behind at form
    obtain ⟨token, taken, value⟩ := body ((.closingOpenBracket,
      tagMark .closingOpenBracket) :: (.identifier, written) :: behind) fun item first => by
        obtain rfl := Option.some.inj first
        simp
    simp only [taken, Token.place, takeKind_of_eq] at form
    obtain ⟨rfl, rfl, rfl⟩ := PieceForm.literal.inj form
    refine ⟨rfl, value, ?_⟩
    exact .some more same blank rfl rfl

/-- **The open tag of an element that is read as a literal one.** -/
theorem OpenTag.IsRead.literalAt {tag : OpenTag} {body : TextNode} {closing : Option CloseTag}
    (read : tag.IsRead tags source body closing) :
    ∃ front inside after,
      LiteralAt tags source.toList front inside tag.name.toList body.value.toList after ∧
      tag.nameSpan = ⟨nameStart front .openBracket,
        nameStart front .openBracket + byteLength tag.name.toList⟩ ∧
      tags.contains tag.name = true ∧
      LiteralEnd tag.name.toList (nameStart front .openBracket + byteLength tag.name.toList +
        byteLength (spelling inside) + 1 + byteLength body.value.toList) after closing := by
  obtain ⟨bracket, rest, suffix, kind, form⟩ := read
  obtain ⟨read, behind, front, middle, here, start, place, whole, others, ends⟩ :=
    readOpenTag_tagAt suffix kind
  unfold readOpening at form
  simp only at form
  split at form
  next literal =>
    obtain ⟨closed, kept⟩ := literal
    rw [closed] at ends
    cases ends with
    | leave open' => exact absurd rfl open'
    | close token same bracketed =>
      subst same
      obtain ⟨inside, ⟨kind, mark⟩, back, cut, closes, plain, behindTag⟩ :=
        exists_lexeme_of_place whole others
      obtain rfl : kind = .closeBracket := closes.trans bracketed
      rw [LiteralTags.kept, if_pos kept] at cut
      have cuts := lexemes_cut tags (.tag (some (readOpenTag bracket rest).node.1.name.toList)) behind
      rw [cut] at cuts
      obtain rfl : mark = ['>'] := by
        have proper := (cuts.proper _ (List.mem_append_right _ List.mem_cons_self)).fixed ">" rfl
        simpa using congrArg String.toList proper
      have split := cuts.whole
      rw [spelling_append, spelling_cons, List.append_nil] at split
      subst split
      have same : ([] : List Char) = [] ∨ TagPair [] [] := .inl rfl
      obtain ⟨tail, _⟩ := lexemes_closed (.tag : Swaps (readOpenTag bracket rest).node.1.name.toList
        (readOpenTag bracket rest).node.1.name.toList _ _) same rfl (by simpa using cut) plain rfl
      rw [List.append_nil] at tail
      obtain ⟨text, after, whole, opened, finish, shape⟩ := lexemes_literal tags
        (readOpenTag bracket rest).node.1.name.toList (spelling back)
      rw [behindTag, tail, shape] at form
      obtain ⟨rfl, value, last⟩ := readLiteral_end here.proper finish form
      have content : body.value.toList = text := by rw [value, String.toList_ofList]
      rw [whole] at here cut tail
      refine ⟨read, inside, after, ⟨?_, plain, ?_, ?_⟩, place, kept, ?_⟩
      · rw [content]
        exact here
      · rw [content, ← tail]
        exact cut
      · rw [content]
        exact opened
      · have size : byteLength (spelling (inside ++ [(.closeBracket, ['>'])])) =
            byteLength (spelling inside) + 1 := by
          rw [spelling_append, byteLength_append]
          rfl
        rw [size, ← Nat.add_assoc] at last
        rw [content]
        exact last
  next => cases form

end PromptMarkup.Markup
