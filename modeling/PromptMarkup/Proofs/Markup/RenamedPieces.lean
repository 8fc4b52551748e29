/-
**Pieces under other names.**

The pieces that tokens make up are the same where some tags have other names, but for these names.

* `readText_renamed`, `readComment_renamed`, `readOpening_renamed`: the readers of pieces;
* `Piece.Renames`, `pieces_renamed`: pieces of the same form, with the same source if no name in it
  is renamed.
-/

import PromptMarkup.Proofs.Markup.PiecePlaces
import PromptMarkup.Proofs.Markup.RenamedTags

namespace PromptMarkup.Markup

variable {relabel : Relabel} {tags : LiteralTags} {ones others : List Token}

/-! ### Leaves -/

theorem joinTexts_congr {ones others : List Token}
    (same : List.Forall₂ (fun one other => other.text = one.text) ones others) :
    joinTexts others = joinTexts ones := by
  unfold joinTexts
  rw [map_of_forall₂ same fun _ _ => id]

/-- Text up to the next piece is the same. -/
theorem Renamed.text (same : Renamed relabel ones others) :
    List.Forall₂ (fun one other : Token => other.text = one.text)
        (ones.takeWhile fun token => !beginsPiece token.kind)
        (others.takeWhile fun token => !beginsPiece token.kind) ∧
      Renamed relabel (ones.dropWhile fun token => !beginsPiece token.kind)
        (others.dropWhile fun token => !beginsPiece token.kind) := by
  induction same with
  | nil => exact ⟨.nil, .nil⟩
  | @token one other _ _ differs kinds text later ih =>
    simp only [List.takeWhile_cons, List.dropWhile_cons, kinds]
    split
    · exact ⟨.cons text ih.1, ih.2⟩
    · exact ⟨.nil, .token differs kinds text later⟩
  | @tag bracket mark _ _ _ _ tag kinds text name word spell later ih =>
    have begins : beginsPiece bracket.kind = true := by
      rcases List.mem_cons.mp tag with same | tag
      · rw [same]; rfl
      · rw [List.mem_singleton.mp tag]; rfl
    simp only [List.takeWhile_cons, List.dropWhile_cons, kinds, begins]
    exact ⟨.nil, .tag tag kinds text name word spell later⟩

theorem readText_renamed {first head : Token} (text : head.text = first.text)
    (same : Renamed relabel ones others) :
    Reading.Renames relabel (fun one other : TextNode => other.value = one.value)
      (readText first ones) (readText head others) := by
  obtain ⟨texts, behind⟩ := same.text
  exact ⟨joinTexts_congr (.cons text texts), behind⟩

/-- The words of a comment, and whether it has the keyword of pragmas, are the same. -/
theorem Renamed.comment (same : Renamed relabel ones others) :
    ((others.takeWhile fun token => token.kind ≠ .commentClose).any fun token =>
        token.kind = .pragmaKeyword) =
      ((ones.takeWhile fun token => token.kind ≠ .commentClose).any fun token =>
        token.kind = .pragmaKeyword) ∧
    (((others.takeWhile fun token => token.kind ≠ .commentClose).filter fun token =>
        token.kind = .textContent).map Token.text) =
      ((ones.takeWhile fun token => token.kind ≠ .commentClose).filter fun token =>
        token.kind = .textContent).map Token.text := by
  induction same with
  | nil => exact ⟨rfl, rfl⟩
  | @token one other _ _ _ kinds text later ih =>
    simp only [List.takeWhile_cons, kinds]
    split
    · simp only [List.any_cons, List.filter_cons, kinds, ih.1]
      refine ⟨trivial, ?_⟩
      split
      · rw [List.map_cons, List.map_cons, text, ih.2]
      · exact ih.2
    · exact ⟨rfl, rfl⟩
  | @tag bracket mark _ _ _ _ tag kinds _ name word _ _ ih =>
    have apart : ∀ kind, kind ∉ tagKinds → bracket.kind ≠ kind :=
      fun kind plain same => plain (same ▸ tag)
    simpa [List.takeWhile_cons, kinds, name, word, apart _ (by decide : TokenKind.commentClose ∉ _),
      apart _ (by decide : TokenKind.pragmaKeyword ∉ _),
      apart _ (by decide : TokenKind.textContent ∉ _)] using ih

theorem readComment_renamed (opening mark : Token) (same : Renamed relabel ones others) :
    Reading.Renames relabel (Content.Renames relabel) (readComment opening ones)
      (readComment mark others) := by
  obtain ⟨keyword, words⟩ := same.comment
  have behind := same.behind (show TokenKind.commentClose ∉ tagKinds by decide) (by decide)
  unfold readComment
  simp only [keyword, words]
  split
  · exact ⟨.pragma rfl rfl, behind⟩
  · exact ⟨.comment _ _, behind⟩

/-! ### Elements -/

/-- Pieces that are the same but for the names of tags that are renamed. -/
inductive PieceForm.Renames (relabel : Relabel) : PieceForm → PieceForm → Prop
  | opening {one other : OpenTag} (terminator : Terminator) : one.Renames relabel other →
      PieceForm.Renames relabel (.opening one terminator) (.opening other terminator)
  | closing {one other : CloseTag} : one.Renames relabel other →
      PieceForm.Renames relabel (.closing one) (.closing other)
  | literal {one other : OpenTag} {body text : TextNode} {close last : Option CloseTag} :
      one.Renames relabel other → text.value = body.value → last.isSome = close.isSome →
      PieceForm.Renames relabel (.literal one body close) (.literal other text last)
  | leaf {one other : Content} : one.Renames relabel other →
      PieceForm.Renames relabel (.leaf one) (.leaf other)

theorem readLiteral_renamed {tag other : OpenTag} (renamed : tag.Renames relabel other)
    (start stop : Nat) (same : Renamed relabel ones others) :
    Reading.Renames relabel (PieceForm.Renames relabel) (readLiteral tag start ones)
      (readLiteral other stop others) := by
  obtain ⟨text, behind⟩ := same.takeKind (show TokenKind.textContent ∉ tagKinds by decide)
  unfold readLiteral
  generalize takeKind .textContent ones = taken at text behind ⊢
  generalize takeKind .textContent others = found at text behind ⊢
  obtain ⟨content, ones⟩ := taken
  obtain ⟨again, others⟩ := found
  have body : (again.elim (⟨"", ⟨stop, stop⟩⟩ : TextNode) fun token =>
      ⟨token.text, token.span⟩).value = (content.elim (⟨"", ⟨start, start⟩⟩ : TextNode)
        fun token => ⟨token.text, token.span⟩).value := by
    cases text with
    | none => rfl
    | some text => exact text
  simp only at behind ⊢
  cases behind with
  | nil => exact ⟨.literal renamed body rfl, .nil⟩
  | @token one mark _ _ differs kinds string later =>
    have apart : one.kind ≠ .closingOpenBracket := fun same => differs (same ▸ by decide)
    rw [takeKind_cons_ne apart, takeKind_cons_ne (kinds ▸ apart)]
    exact ⟨.literal renamed body rfl, .token differs kinds string later⟩
  | @tag bracket mark _ _ _ _ tag kinds string name word spell later =>
    by_cases kind : bracket.kind = .closingOpenBracket
    · rw [kind] at spell
      rw [takeKind_of_eq kind, takeKind_of_eq (kinds.trans kind)]
      have read : Reading.Renames relabel (CloseTag.Renames relabel)
          (readCloseTag bracket _) (readCloseTag mark _) :=
        readCloseTag_renamed name word spell later
      exact ⟨.literal renamed body rfl, read.rest⟩
    · rw [takeKind_cons_ne kind, takeKind_cons_ne (kinds ▸ kind)]
      exact ⟨.literal renamed body rfl, .tag tag kinds string name word spell later⟩

theorem Relabel.Opens.contains {span : Span} {name word : String}
    (opens : relabel.Opens span name word)
    (same : tags.contains relabel.new = tags.contains relabel.old) :
    tags.contains word = tags.contains name := by
  unfold Relabel.Opens at opens
  split at opens
  · rw [opens.1, opens.2, same]
  · rw [opens]

/-- **An open tag under another name**, with all of a literal element. The new name has to be
literal if the old one is. -/
theorem readOpening_renamed {bracket mark name word : Token} (kind : name.kind = .identifier)
    (again : word.kind = .identifier) (spell : relabel.Opens name.span name.text word.text)
    (literal : tags.contains relabel.new = tags.contains relabel.old)
    (same : Renamed relabel ones others) :
    Reading.Renames relabel (PieceForm.Renames relabel)
      (readOpening tags bracket (name :: ones)) (readOpening tags mark (word :: others)) := by
  have read : Reading.Renames relabel (TagRenames relabel) (readOpenTag bracket (name :: ones))
    (readOpenTag mark (word :: others)) := readOpenTag_renamed kind again spell same
  have first : (readOpenTag bracket (name :: ones)).node.1.name = name.text := by
    unfold readOpenTag
    rw [takeKind_of_eq kind]
    rfl
  have second : (readOpenTag mark (word :: others)).node.1.name = word.text := by
    unfold readOpenTag
    rw [takeKind_of_eq again]
    rfl
  unfold readOpening
  simp only [first, second, spell.contains literal, read.node.terminator]
  split
  · have whole := fun start stop => readLiteral_renamed read.node.tag start stop read.rest
    exact ⟨(whole _ _).node, (whole _ _).rest⟩
  · exact ⟨.opening _ read.node.tag, read.rest⟩

/-! ### Pieces -/

/-- **A piece under other names.** -/
theorem readPiece_renamed {first head : Token}
    (literal : tags.contains relabel.new = tags.contains relabel.old)
    (same : Renamed relabel (first :: ones) (head :: others)) :
    Reading.Renames relabel (PieceForm.Renames relabel) (readPiece tags first ones)
      (readPiece tags head others) := by
  cases same with
  | token differs kinds text later =>
    unfold readPiece
    simp only [kinds]
    split
    next kind => exact absurd (kind ▸ by decide) differs
    next kind => exact absurd (kind ▸ by decide) differs
    · have read := readTemplate_renamed later first head
      exact ⟨.leaf (.template read.node), read.rest⟩
    · have read := readComment_renamed first head later
      exact ⟨.leaf read.node, read.rest⟩
    · have read := readText_renamed text later
      exact ⟨.leaf (.text read.node), read.rest⟩
  | tag tag kinds text name word spell later =>
    unfold readPiece
    rcases List.mem_cons.mp tag with kind | tag
    · rw [kind] at spell
      simp only [kinds, kind]
      exact readOpening_renamed name word spell literal later
    · have kind := List.mem_singleton.mp tag
      rw [kind] at spell
      simp only [kinds, kind]
      have read : Reading.Renames relabel (CloseTag.Renames relabel) (readCloseTag first _)
        (readCloseTag head _) := readCloseTag_renamed name word spell later
      exact ⟨.closing read.node, read.rest⟩

/-- Pieces of the same form, with the same source if no name in it is renamed. -/
structure Piece.Renames (relabel : Relabel) (one other : Piece) : Prop where
  form : one.form.Renames relabel other.form
  source : (∀ place ∈ relabel.all, one.span.containsSpan place = false) →
    other.source = one.source

theorem Renamed.length_eq (same : Renamed relabel ones others) :
    others.length = ones.length := by
  induction same with
  | nil => rfl
  | token _ _ _ _ ih => simp only [List.length_cons, ih]
  | tag _ _ _ _ _ _ _ ih => simp only [List.length_cons, ih]

/-- Tokens have the same text unless they are names that are renamed. -/
theorem Renamed.texts (same : Renamed relabel ones others) :
    List.Forall₂ (fun one other : Token => one.span ∉ relabel.all → other.text = one.text) ones
      others := by
  induction same with
  | nil => exact .nil
  | token _ _ text _ ih => exact .cons (fun _ => text) ih
  | tag _ _ text _ _ spell _ ih =>
    refine .cons (fun _ => text) (.cons (fun apart => ?_) ih)
    exact Relabel.eq_of_spells spell apart

/-- The first tokens of a run stand inside of what they read. -/
theorem Run.contains {source : String} {start : Nat} {front rest : List Token}
    (run : Run tags source start (front ++ rest)) :
    ∀ token ∈ front, (⟨start, stopOf start front⟩ : Span).containsSpan token.span := by
  induction front generalizing start with
  | nil => exact List.forall_mem_nil _
  | cons token front ih =>
    obtain ⟨rfl, sound, tail⟩ := run.uncons
    have later := ih tail
    have order := tail.append.2.start_le_stop
    simp only [Span.containsSpan, Bool.and_eq_true, decide_eq_true_eq] at later order ⊢
    rw [stopOf_cons]
    refine List.forall_mem_cons.mpr ⟨⟨Nat.le_refl _, order⟩, fun other member => ?_⟩
    exact ⟨Nat.le_trans sound.nonempty.le (later other member).1, (later other member).2⟩

/-- Tokens that have been taken have the same texts if no name among them is renamed. -/
theorem joinTexts_take {source : String} {start : Nat} (count : Nat)
    (run : Run tags source start ones) (same : Renamed relabel ones others)
    (apart : ∀ place ∈ relabel.all,
      (⟨start, stopOf start (ones.take count)⟩ : Span).containsSpan place = false) :
    joinTexts (others.take count) = joinTexts (ones.take count) := by
  rw [← List.take_append_drop count ones] at run
  have texts := List.forall₂_take count same.texts
  have inside := run.contains
  generalize ones.take count = taken at texts inside apart ⊢
  generalize others.take count = found at texts ⊢
  have each : ∀ token ∈ taken, token.span ∉ relabel.all := fun token member renamed =>
    Bool.false_ne_true ((apart _ renamed).symm.trans (inside token member))
  have whole := (List.forall₂_and_left taken found).mpr ⟨each, texts⟩
  exact joinTexts_congr (whole.imp fun _ _ both => both.2 both.1)

/-- **The pieces of a source under other names.** -/
theorem pieces_renamed {source : String} {start : Nat}
    (literal : tags.contains relabel.new = tags.contains relabel.old)
    (run : Run tags source start ones) (same : Renamed relabel ones others) :
    List.Forall₂ (Piece.Renames relabel) (pieces tags ones) (pieces tags others) := by
  induction ones using pieces.induct tags generalizing start others with
  | case1 =>
    cases same
    rw [pieces]
    exact .nil
  | case2 first rest reading =>
    rename_i ih
    obtain ⟨head, more, rfl⟩ : ∃ head more, others = head :: more := by
      cases same with
      | token => exact ⟨_, _, rfl⟩
      | tag => exact ⟨_, _, rfl⟩
    have read := readPiece_renamed literal same
    obtain ⟨rfl, _, _⟩ := run.uncons
    obtain ⟨stop, left, _⟩ := readPiece_stands run
    have length := same.length_eq
    simp only [List.length_cons, Nat.add_right_cancel_iff] at length
    rw [pieces, pieces]
    refine .cons ⟨read.node, fun apart => ?_⟩ (ih left read.rest)
    rw [length, read.rest.length_eq]
    refine joinTexts_take (rest.length - reading.rest.length + 1) run same ?_
    rw [List.take_succ_cons, stopOf_cons, ← stopOf_cons first.span.stop]
    exact apart

end PromptMarkup.Markup
