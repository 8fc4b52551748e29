/-
**Places of pieces.**

The pieces of a source stand one behind the other as its tokens do. Each keeps what the source reads
at its range, and the parts of it are placed inside of that range.

* `PieceForm.Fits`: what a piece is made of fits a range;
* `PieceForm.Stands`: it fits the range up to where a run of tokens is left;
* `readText_stands`, `readComment_stands`, `readLiteral_stands`, `readOpening_stands`: the readers;
* `PieceRun`, `pieces_run`: the pieces of a source from an offset on.
-/

import PromptMarkup.Proofs.Markup.TagPlaces

namespace PromptMarkup.Markup

variable {tags : LiteralTags} {source : String} {start : Nat} {tokens rest : List Token}

/-! ### Forms -/

/-- What a piece is made of fits a range. An open tag, which is kept without its closing bracket,
may end earlier. -/
def PieceForm.Fits (source : String) (span : Span) : PieceForm → Prop
  | opening tag _ =>
    (Node.openTag tag).IsPlaced source ∧ tag.span.start = span.start ∧ tag.span.stop ≤ span.stop
  | closing tag => (Node.closeTag tag).IsPlaced source ∧ tag.span = span
  | literal tag body close =>
    tag.span.start = span.start ∧
      (close.elim body.span.stop fun close => close.span.stop) = span.stop ∧
      Row source span.start
        (.openTag tag :: .text body :: close.toList.map Node.closeTag) span.stop
  | leaf content => content.node.IsPlaced source ∧ content.node.span = span

/-- What a piece is made of fits the range from an offset to where a run of tokens begins. -/
def PieceForm.Stands (tags : LiteralTags) (source : String) (start : Nat) (form : PieceForm)
    (rest : List Token) : Prop :=
  ∃ stop, Run tags source stop rest ∧ form.Fits source ⟨start, stop⟩

theorem Node.Stands.span_eq {node : Node} (stands : node.Stands tags source start rest) :
    node.span = ⟨start, node.span.stop⟩ := by
  rw [← stands.start_eq]

/-! ### Texts and comments -/

/-- **A run of text stands where it is read.** -/
theorem readText_stands {first : Token} (run : Run tags source first.span.start (first :: tokens)) :
    (Node.text (readText first tokens).node).Stands tags source first.span.start
      (readText first tokens).rest := by
  obtain ⟨_, sound, tail⟩ := run.uncons
  rw [← List.takeWhile_append_dropWhile (p := fun token => !beginsPiece token.kind) (l := tokens)]
    at tail
  obtain ⟨left, reads⟩ := tail.append
  have whole := Span.Reads.append sound.reads reads
  rw [← joinTexts_cons, ← stopOf_cons first.span.stop] at whole
  rw [← stopOf_cons first.span.stop] at left
  unfold readText
  exact .leaf rfl rfl run.isValid whole.start_le_stop (List.forall_mem_singleton.mpr whole) left

/-- **A comment stands where it is read.** -/
theorem readComment_stands {opening : Token} (sound : opening.IsSound source)
    (run : Run tags source opening.span.stop tokens) :
    (readComment opening tokens).node.node.Stands tags source opening.span.start
      (readComment opening tokens).rest := by
  rw [← List.takeWhile_append_dropWhile (p := fun token => token.kind ≠ .commentClose)
    (l := tokens)] at run
  obtain ⟨behind, inside⟩ := run.append
  rw [← List.take_append_drop 1 (tokens.dropWhile _)] at behind
  obtain ⟨left, mark⟩ := behind.append
  have order := calc opening.span.start
    _ ≤ opening.span.stop := sound.nonempty.le
    _ ≤ _ := inside.start_le_stop
    _ ≤ _ := mark.start_le_stop
  have start := sound.reads.start_isValid
  unfold readComment
  simp only
  split
  · exact .leaf rfl rfl start order (fun _ absurd => by cases absurd) left
  · exact .leaf rfl rfl start order (fun _ absurd => by cases absurd) left

/-! ### Elements -/

/-- **A literal element stands where it is read.** Without a body there is an empty one. -/
theorem readLiteral_stands {tag : OpenTag} (placed : (Node.openTag tag).IsPlaced source)
    (le : tag.span.stop ≤ start) (run : Run tags source start tokens) :
    (readLiteral tag start tokens).node.Stands tags source tag.span.start
      (readLiteral tag start tokens).rest := by
  obtain ⟨place, reads, behind⟩ := run.optional .textContent
  have body : (Node.text ⟨Run.optionalText (takeKind .textContent tokens).1,
      Run.optionalSpan start (takeKind .textContent tokens).1⟩).IsPlaced source := .text reads
  have node : (takeKind .textContent tokens).1.elim ⟨"", ⟨start, start⟩⟩
      (fun token => (⟨token.text, token.span⟩ : TextNode)) =
        ⟨Run.optionalText (takeKind .textContent tokens).1,
          Run.optionalSpan start (takeKind .textContent tokens).1⟩ := by
    cases (takeKind .textContent tokens).1 <;> rfl
  unfold readLiteral
  simp only [node]
  generalize Run.optionalSpan start (takeKind .textContent tokens).1 = span at *
  rcases behind.takeKind .closingOpenBracket with
    same | ⟨bracket, after, same, kind, spot, sound, later⟩
  · rw [same]
    refine ⟨span.stop, behind, rfl, rfl, Nat.le_refl _, placed, ?_⟩
    exact row_singleton body (Nat.le_trans le place.ge) (Nat.le_refl _)
  · rw [same]
    have stands := readCloseTag_stands (by rw [kind]; rfl) sound later
    refine ⟨_, stands.run, rfl, rfl, Nat.le_refl _, placed, Nat.le_trans le place.ge, body, ?_⟩
    exact row_singleton stands.placed (stands.start_eq.trans spot).ge (Nat.le_refl _)

/-- **An open tag stands where it is read**, with all of a literal element. -/
theorem readOpening_stands {bracket : Token} (fixed : bracket.kind.fixedText = some "<")
    (sound : bracket.IsSound source) (run : Run tags source bracket.span.stop tokens) :
    (readOpening tags bracket tokens).node.Stands tags source bracket.span.start
      (readOpening tags bracket tokens).rest := by
  obtain ⟨start, _, placed, next, le, left⟩ := readOpenTag_placed fixed sound run
  obtain ⟨again, _⟩ := run.taken left.suffix (readOpenTag_length_le bracket tokens)
  unfold readOpening
  simp only
  generalize readOpenTag bracket tokens = opening at *
  obtain ⟨⟨tag, terminator⟩, problems, rest⟩ := opening
  split
  · rw [again.start_unique left, ← start]
    exact readLiteral_stands placed le left
  · exact ⟨next, left, placed, start, le⟩

/-! ### Pieces -/

/-- **What a piece is made of stands where it is read.** -/
theorem readPiece_stands {first : Token}
    (run : Run tags source first.span.start (first :: tokens)) :
    (readPiece tags first tokens).node.Stands tags source first.span.start
      (readPiece tags first tokens).rest := by
  obtain ⟨_, sound, tail⟩ := run.uncons
  unfold readPiece
  split
  next kind => exact readOpening_stands (by rw [kind]; rfl) sound tail
  next kind =>
    have stands := readCloseTag_stands (by rw [kind]; rfl) sound tail
    exact ⟨_, stands.run, stands.placed, stands.span_eq⟩
  next =>
    have stands := readTemplate_stands sound tail
    exact ⟨_, stands.run, stands.placed, stands.span_eq⟩
  next =>
    have stands := readComment_stands sound tail
    exact ⟨_, stands.run, stands.placed, stands.span_eq⟩
  next =>
    have stands := readText_stands run
    exact ⟨_, stands.run, stands.placed, stands.span_eq⟩

/-- A piece keeps what the source reads at its range, and it is made of what fits there. -/
structure Piece.IsPlaced (source : String) (piece : Piece) : Prop where
  reads : piece.span.Reads source piece.source
  fits : piece.form.Fits source piece.span

/-- Placed pieces that stand one behind the other, from an offset to the end of the source. -/
def PieceRun (source : String) : Nat → List Piece → Prop
  | start, [] => start = source.utf8ByteSize
  | start, piece :: rest =>
    piece.span.start = start ∧ piece.IsPlaced source ∧ PieceRun source piece.span.stop rest

/-- **The pieces of a source stand one behind the other.** -/
theorem pieces_run (run : Run tags source start tokens) :
    PieceRun source start (pieces tags tokens) := by
  induction tokens using pieces.induct tags generalizing start with
  | case1 =>
    rw [pieces]
    exact run.tiles
  | case2 first rest reading =>
    rename_i ih
    rw [pieces]
    obtain ⟨rfl, sound, tail⟩ := run.uncons
    obtain ⟨stop, left, fits⟩ := readPiece_stands run
    -- The offset that the reader stopped at is the one that the tokens it took end at.
    obtain ⟨again, reads⟩ := tail.taken left.suffix (readPiece_length_le tags first rest)
    have whole := Span.Reads.append sound.reads reads
    rw [← joinTexts_cons, ← stopOf_cons first.span.stop] at whole
    rw [← stopOf_cons first.span.stop] at again
    obtain rfl := again.start_unique left
    exact ⟨rfl, ⟨whole, fits⟩, ih left⟩

end PromptMarkup.Markup
