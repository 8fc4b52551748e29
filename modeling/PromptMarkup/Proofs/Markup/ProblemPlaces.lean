/-
**Places of problems.**

Whatever the parser reports, it reports at a range of the source: that of the node that it has read,
of the token that it does not expect, of the name of an element that is not closed, or of the
bracket of an element that nests too deeply.

* `AreReported`: problems of the parser at ranges of the source;
* `readTemplate_reported`, `readQuoted_reported`, `readInside_reported` and others: the readers;
* `readPiece_reported`, `pieces_reported`: pieces;
* `parse_reported`, `stage_of_mem_parse`: the problems of a source.
-/

import PromptMarkup.Proofs.Markup.TreePlaces

namespace PromptMarkup.Markup

variable {tags : LiteralTags} {source : String} {start : Nat} {tokens : List Token}

/-! ### Problems -/

/-- All problems are those of a parser and reported at ranges of the source. -/
def AreReported (source : String) (problems : List Diagnostic) : Prop :=
  ∀ problem ∈ problems, problem.stage = .parse ∧ problem.span.IsIn source

namespace AreReported

theorem nil : AreReported source [] := List.forall_mem_nil _

theorem append {first second : List Diagnostic} (front : AreReported source first)
    (back : AreReported source second) : AreReported source (first ++ second) :=
  List.forall_mem_append.mpr ⟨front, back⟩

theorem cons {problem : Problem} {span : Span} {rest : List Diagnostic}
    (here : span.IsIn source) (later : AreReported source rest) :
    AreReported source (problem.report span :: rest) :=
  List.forall_mem_cons.mpr ⟨⟨rfl, here⟩, later⟩

theorem one {problem : Problem} {span : Span} (here : span.IsIn source) :
    AreReported source [problem.report span] := cons here nil

/-- A problem that there may be. -/
theorem ite {problem : Problem} {span : Span} {condition : Prop} [Decidable condition]
    (here : span.IsIn source) :
    AreReported source (if condition then [problem.report span] else []) := by
  split
  · exact one here
  · exact nil

theorem otherwise {problem : Problem} {span : Span} {condition : Prop} [Decidable condition]
    (here : span.IsIn source) :
    AreReported source (if condition then [] else [problem.report span]) := by
  split
  · exact nil
  · exact one here

end AreReported

/-! ### Parts of tags -/

theorem readTemplate_reported {opening : Token} (sound : opening.IsSound source)
    (run : Run tags source opening.span.stop tokens) :
    AreReported source (readTemplate opening tokens).problems := by
  have place := (readTemplate_stands sound run).placed.isIn
  exact .append (.ite place) (.ite place)

theorem readParts_reported {quote : TokenKind} (run : Run tags source start tokens) :
    AreReported source (readParts quote start tokens).problems := by
  fun_induction readParts quote start tokens with
  | case1 stop => exact .nil
  | case2 stop token rest same => exact .nil
  | case3 stop token rest other opens template others ih =>
    obtain ⟨rfl, sound, inner⟩ := run.uncons
    exact .append (readTemplate_reported sound inner) (ih (readTemplate_stands sound inner).run)
  | case4 stop token rest other opens text others ih =>
    obtain ⟨rfl, sound, behind⟩ := run.uncons
    exact ih behind
  | case5 stop token rest => exact .nil

theorem readQuoted_reported (key : String) {opening : Token}
    (mark : opening.kind = .doubleQuote ∨ opening.kind = .singleQuote)
    (sound : opening.IsSound source) (run : Run tags source opening.span.stop tokens) :
    AreReported source (readQuoted key opening tokens).problems := by
  have parts : AreReported source (readParts opening.kind opening.span.stop tokens).problems :=
    readParts_reported run
  have fits := (readQuoted_stands key mark sound run).placed.fits
  obtain ⟨row, _, left⟩ := readParts_placed mark run
  have place : (⟨opening.span.start, (readParts opening.kind opening.span.stop tokens).node.stop⟩ :
      Span).IsIn source := by
    refine .of_isValid sound.reads.start_isValid left.isValid ?_
    exact Nat.le_trans sound.nonempty.le row.start_le_stop
  unfold readQuoted at fits ⊢
  simp only at fits ⊢
  split
  · exact parts.append (.otherwise place)
  next texts =>
    rw [if_neg texts] at fits
    split
    next loop =>
      rw [if_pos loop] at fits
      split
      · exact parts.append (.otherwise place)
      next same =>
        -- A value that is no iterator is reported between its quotes.
        rw [same] at fits
        exact (parts.append (.otherwise place)).append (.one ⟨_, fits.reads _ List.mem_cons_self⟩)
    next => exact parts.append (.otherwise place)

theorem readValue_reported (key : String) {named : Span} (here : named.IsIn source)
    (run : Run tags source start tokens) :
    AreReported source (readValue key named tokens).problems := by
  unfold readValue
  split
  · exact .one here
  next token rest =>
    obtain ⟨rfl, sound, behind⟩ := run.uncons
    split
    next kind => exact readQuoted_reported key (.inl kind) sound behind
    next kind => exact readQuoted_reported key (.inr kind) sound behind
    next => exact readTemplate_reported sound behind
    next => exact .one ⟨_, sound.reads⟩
    next => exact .one ⟨_, sound.reads⟩
    next => exact .one here

theorem readAttribute_reported {key : Token} (sound : key.IsSound source)
    (run : Run tags source key.span.stop tokens) :
    AreReported source (readAttribute key tokens).problems := by
  obtain ⟨blank, le, inner⟩ := run.skipKind_beyond .whitespace 0
  unfold readAttribute
  rcases inner.takeKind .equals with same | ⟨equals, after, same, _, place, mark, behind⟩
  · rw [same]
    exact .nil
  · rw [same]
    obtain ⟨next, _, left⟩ := behind.skipKind_beyond .whitespace 0
    have start := sound.reads.start_isValid
    refine readValue_reported key.text (.of_isValid start behind.isValid ?_) left
    have name := sound.nonempty
    have sign := mark.nonempty
    show key.span.start ≤ equals.span.stop
    omega

/-! ### Tags -/

theorem readInside_reported (name : String) (run : RunBeyond tags source start tokens) :
    AreReported source (readInside name start tokens).problems := by
  fun_induction readInside name start tokens with
  | case1 stop => exact .nil
  | case2 stop token rest kind ih =>
    obtain ⟨_, _, left⟩ := run
    obtain ⟨rfl, sound, behind⟩ := left.uncons
    exact ih behind.beyond
  | case3 stop token rest kind first others ih =>
    obtain ⟨_, _, left⟩ := run
    obtain ⟨rfl, sound, behind⟩ := left.uncons
    obtain ⟨_, _, beyond⟩ := readAttribute_placed sound behind
    exact (readAttribute_reported sound behind).append (ih beyond)
  | case4 stop token rest kind | case5 stop token rest kind => exact .nil
  | case6 stop token rest kind template others ih =>
    obtain ⟨_, _, left⟩ := run
    obtain ⟨rfl, sound, behind⟩ := left.uncons
    have stands := readTemplate_stands sound behind
    have others := ih stands.run.beyond
    exact (readTemplate_reported sound behind).append (.cons stands.placed.isIn others)
  | case7 stop token rest kind others ih | case8 stop token rest kind others ih
  | case9 stop token rest kind others ih | case10 stop token rest kind others ih =>
    obtain ⟨_, _, left⟩ := run
    obtain ⟨rfl, sound, behind⟩ := left.uncons
    exact .cons ⟨_, sound.reads⟩ (ih (skipStray_beyond token.kind behind.beyond))
  | case11 stop token rest => exact .nil

theorem readOpenTag_reported {bracket : Token} (fixed : bracket.kind.fixedText = some "<")
    (sound : bracket.IsSound source) (run : Run tags source bracket.span.stop tokens) :
    AreReported source (readOpenTag bracket tokens).problems := by
  have size : bracket.span.stop = bracket.span.start + 1 := sound.stop_eq fixed
  obtain ⟨_, _, behind⟩ := run.optional .identifier
  unfold readOpenTag
  rw [← size]
  exact readInside_reported _ behind.beyond

theorem readCloseTag_reported {bracket : Token} (fixed : bracket.kind.fixedText = some "</")
    (sound : bracket.IsSound source) (run : Run tags source bracket.span.stop tokens) :
    AreReported source (readCloseTag bracket tokens).problems :=
  .ite (readCloseTag_stands fixed sound run).placed.isIn

/-! ### Pieces -/

theorem readComment_reported {opening : Token} (sound : opening.IsSound source)
    (run : Run tags source opening.span.stop tokens) :
    AreReported source (readComment opening tokens).problems := by
  have place := (readComment_stands sound run).placed.isIn
  revert place
  unfold readComment
  simp only
  split
  · exact fun place => .append (.ite place) (.ite place)
  · exact fun place => .ite place

theorem readLiteral_reported {tag : OpenTag} (run : Run tags source start tokens) :
    AreReported source (readLiteral tag start tokens).problems := by
  obtain ⟨_, _, behind⟩ := run.optional .textContent
  unfold readLiteral
  simp only
  rcases behind.takeKind .closingOpenBracket with
    same | ⟨bracket, after, same, kind, _, sound, later⟩
  · rw [same]
    exact .nil
  · rw [same]
    exact readCloseTag_reported (by rw [kind]; rfl) sound later

theorem readOpening_reported {bracket : Token} (fixed : bracket.kind.fixedText = some "<")
    (sound : bracket.IsSound source) (run : Run tags source bracket.span.stop tokens) :
    AreReported source (readOpening tags bracket tokens).problems := by
  have opening := readOpenTag_reported fixed sound run
  obtain ⟨_, _, _, next, _, left⟩ := readOpenTag_placed fixed sound run
  obtain ⟨again, _⟩ := run.taken left.suffix (readOpenTag_length_le bracket tokens)
  unfold readOpening
  simp only
  split
  · exact opening.append (readLiteral_reported again)
  · exact opening

/-- **What is reported of a piece is reported in the source.** -/
theorem readPiece_reported {first : Token}
    (run : Run tags source first.span.start (first :: tokens)) :
    AreReported source (readPiece tags first tokens).problems := by
  obtain ⟨_, sound, tail⟩ := run.uncons
  unfold readPiece
  split
  next kind => exact readOpening_reported (by rw [kind]; rfl) sound tail
  next kind => exact readCloseTag_reported (by rw [kind]; rfl) sound tail
  next => exact readTemplate_reported sound tail
  next => exact readComment_reported sound tail
  next => exact .nil

/-- Only a bracket begins an element. -/
theorem kind_of_opensElement {first : Token} {piece : Piece} (opens : piece.opensElement = true)
    (form : piece.form = (readPiece tags first tokens).node) : first.kind = .openBracket := by
  unfold Piece.opensElement at opens
  unfold readPiece at form
  split at form
  next kind => exact kind
  all_goals
    rw [form] at opens
    cases opens

/-- What is reported of a piece, and its bracket if it begins an element, are in the source. -/
structure Piece.IsReported (source : String) (piece : Piece) : Prop where
  problems : AreReported source piece.problems
  bracket : piece.opensElement = true →
    (⟨piece.span.start, piece.span.start + 1⟩ : Span).IsIn source

theorem pieces_reported (run : Run tags source start tokens) :
    ∀ piece ∈ pieces tags tokens, piece.IsReported source := by
  induction tokens using pieces.induct tags generalizing start with
  | case1 =>
    rw [pieces]
    exact List.forall_mem_nil _
  | case2 first rest reading =>
    rename_i ih
    rw [pieces]
    obtain ⟨rfl, sound, _⟩ := run.uncons
    obtain ⟨stop, left, _⟩ := readPiece_stands run
    refine List.forall_mem_cons.mpr ⟨⟨readPiece_reported run, fun opens => ?_⟩, ih left⟩
    have kind : first.kind = .openBracket := kind_of_opensElement opens rfl
    have fixed : first.kind.fixedText = some "<" := by rw [kind]; rfl
    have size : first.span.stop = first.span.start + 1 := sound.stop_eq fixed
    exact ⟨first.text, size ▸ sound.reads⟩

/-! ### Documents -/

theorem OpenTag.name_isIn {tag : OpenTag} (placed : (Node.openTag tag).IsPlaced source) :
    tag.nameSpan.IsIn source := ⟨_, placed.fits.reads _ List.mem_cons_self⟩

theorem step_reported {piece : Piece} (assembly : Assembly) (placed : piece.IsPlaced source)
    (reported : AreReported source piece.problems) :
    AreReported source (assembly.step piece).2 := by
  obtain ⟨form, problems, text, span⟩ := piece
  obtain ⟨reads, inside⟩ := placed
  unfold Assembly.step
  simp only at reported inside ⊢
  cases form with
  | leaf content => exact reported
  | literal tag body closing =>
    obtain ⟨_, _, _, tagPlaced, _⟩ := inside
    exact reported.append (.ite (OpenTag.name_isIn tagPlaced))
  | opening tag terminator =>
    obtain ⟨tagPlaced, _, _⟩ := inside
    cases terminator with
    | selfClose => exact reported
    | missing => exact reported.append (.one tagPlaced.isIn)
    | close => exact reported
  | closing tag =>
    have here : tag.span.IsIn source := inside.1.isIn
    simp only
    split
    · exact reported.append (.one here)
    · split
      · exact reported
      · exact reported.append (.one here)

theorem finishAll_reported {pending contents : List Content} {opened : List OpenElement}
    (rows : OpenRows source contents opened start) :
    AreReported source (finishAll pending contents opened).2 := by
  induction opened generalizing pending start with
  | nil => exact .nil
  | cons innermost outer ih =>
    obtain ⟨inner, around⟩ := rows
    exact .cons (OpenTag.name_isIn inner.tag) (ih around)

theorem skipElement_reported {all : List Piece} (count start : Nat)
    (reported : ∀ piece ∈ all, piece.IsReported source) :
    AreReported source (skipElement count start all).problems := by
  induction all generalizing count start with
  | nil => exact .nil
  | cons piece rest ih =>
    obtain ⟨here, later⟩ := List.forall_mem_cons.mp reported
    have inside : AreReported source (problemsInside piece) := by
      unfold problemsInside
      split
      · exact .nil
      · exact here.problems
    unfold skipElement
    simp only
    split
    · exact inside.append .nil
    · exact inside.append (ih _ _ later)

theorem assemble_reported {assembly : Assembly} {all : List Piece}
    (fits : assembly.Fits source start) (run : PieceRun source start all)
    (reported : ∀ piece ∈ all, piece.IsReported source) :
    AreReported source (assemble assembly all).2 := by
  induction assembly, all using assemble.induct generalizing start with
  | case1 assembly =>
    rw [assemble]
    exact finishAll_reported fits
  | case2 assembly piece rest deep skipped span =>
    rename_i ih
    obtain ⟨reads, left⟩ := skipElement_reads 0 run
    have inside := skipElement_reported 0 start reported
    have suffix := skipElement_suffix 0 start (piece :: rest)
    obtain ⟨rfl, placed, _⟩ := run
    have bracket := (reported piece List.mem_cons_self).bracket deep.1
    rw [assemble, if_pos deep]
    refine inside.append (.cons bracket ?_)
    exact ih (fits.add (.text reads) (Nat.le_refl _) (Nat.le_refl _)) left
      fun piece member => reported piece (suffix.mem member)
  | case3 assembly piece rest shallow next found same =>
    rename_i ih
    obtain ⟨here, behind⟩ := List.forall_mem_cons.mp reported
    obtain ⟨rfl, placed, later⟩ := run
    have stepped := fits.step placed
    have problems := step_reported assembly placed here.problems
    rw [same] at stepped problems
    rw [assemble, if_neg shallow, same]
    exact problems.append (ih stepped later behind)

theorem areReported_parse (tags : LiteralTags) (source : String) :
    AreReported source (parse tags source).diagnostics := by
  have run := Run.tokenize tags source
  have fresh : Assembly.Fits source ⟨[], []⟩ 0 := Nat.le_refl 0
  exact assemble_reported fresh (pieces_run run) (pieces_reported run)

theorem stage_of_mem_parse {tags : LiteralTags} {source : String} {problem : Diagnostic}
    (member : problem ∈ (parse tags source).diagnostics) : problem.stage = .parse :=
  (areReported_parse tags source problem member).1

end PromptMarkup.Markup
