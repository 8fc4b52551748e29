/-
**The tokens of a source tile it.**

What a reader of the parser is given is always the rest of the tokens of the source: sound tokens
that tile it from some offset to its end.

* `Tiles`: tokens that stand one behind the other;
* `Token.IsSound`: a token with the text that the source reads at its range;
* `place_tiles`, `place_isSound`: lexemes that spell a part of the source become such tokens;
* `tokenize_tiles`: the tokens of a source stand one behind the other from its first byte to its
  last, between boundaries of characters, each with its slice of the source;
* `Run`: the rest of the tokens from an offset on;
* `Run.append`: what is left behind the first tokens of a run, and what those read;
* `Run.skipKind`, `Run.takeKind`, `Run.optional`: a token taken off if it is of a kind;
* `RunBeyond`: the rest of the tokens behind an offset, some of which may have been passed over.
-/

import PromptMarkup.Markup.Document
import PromptMarkup.Proofs.Markup.Lexemes
import PromptMarkup.Proofs.Source.Reading

namespace PromptMarkup.Markup

open Text

/-! ### Tilings -/

/-- Tokens stand one behind the other from `start` to `stop`. -/
def Tiles : Nat → List Token → Nat → Prop
  | start, [], stop => start = stop
  | start, token :: rest, stop => token.span.start = start ∧ Tiles token.span.stop rest stop

/-- The lexemes of a text, placed from an offset on, take the bytes of the text. -/
theorem place_tiles (offset : Nat) (lexemes : List Lexeme) :
    Tiles offset (Token.place offset lexemes) (offset + byteLength (spelling lexemes)) := by
  induction lexemes generalizing offset with
  | nil => rfl
  | cons lexeme rest ih =>
    obtain ⟨kind, chars⟩ := lexeme
    refine ⟨rfl, ?_⟩
    have tail := ih (offset + byteLength chars)
    rwa [Nat.add_assoc, ← byteLength_append] at tail

theorem place_append (offset : Nat) (first second : List Lexeme) :
    Token.place offset (first ++ second) = Token.place offset first
      ++ Token.place (offset + byteLength (spelling first)) second := by
  induction first generalizing offset with
  | nil => rfl
  | cons lexeme first ih =>
    obtain ⟨kind, chars⟩ := lexeme
    rw [List.cons_append, Token.place, ih, Token.place, spelling_cons, byteLength_append,
      Nat.add_assoc]
    rfl

/-! ### Sound tokens -/

/-- A token of a source has the text that the source reads at its range. The text is not empty, and
it is that of its kind if the kind has one. -/
structure Token.IsSound (source : String) (token : Token) : Prop where
  reads : token.span.Reads source token.text
  nonempty : token.span.start < token.span.stop
  fixed : ∀ text, token.kind.fixedText = some text → token.text = text

/-- Proper lexemes that spell a part of the source, placed where it stands, are sound tokens. -/
theorem place_isSound {source : String} (before after : List Char) {lexemes : List Lexeme}
    (whole : source.toList = before ++ spelling lexemes ++ after)
    (proper : ∀ lexeme ∈ lexemes, IsProper lexeme) :
    ∀ token ∈ Token.place (byteLength before) lexemes, token.IsSound source := by
  induction lexemes generalizing before with
  | nil => exact fun _ member => by cases member
  | cons lexeme rest ih =>
    obtain ⟨kind, chars⟩ := lexeme
    have here := proper (kind, chars) List.mem_cons_self
    intro token member
    rcases List.mem_cons.mp member with rfl | later
    · refine ⟨⟨before, spelling rest ++ after, ?_, ?_⟩, ?_, fun text found => here.fixed text found⟩
      · rw [whole, String.toList_ofList]
        simp
      · rw [String.toList_ofList]
      · exact Nat.lt_add_of_pos_right (byteLength_pos here.nonempty)
    · refine ih (before ++ chars) ?_
        (fun lexeme inside => proper lexeme (List.mem_cons_of_mem _ inside)) token ?_
      · rw [whole]
        simp
      · rw [byteLength_append]
        exact later

/-- Every token takes at least one byte. -/
theorem length_le_of_tiles {source : String} {start stop : Nat} {tokens : List Token}
    (tiles : Tiles start tokens stop) (sound : ∀ token ∈ tokens, token.IsSound source) :
    start + tokens.length ≤ stop := by
  induction tokens generalizing start with
  | nil => exact Nat.le_of_eq tiles
  | cons token rest ih =>
    obtain ⟨rfl, tail⟩ := tiles
    have later := ih tail fun other member => sound other (List.mem_cons_of_mem _ member)
    have here := (sound token List.mem_cons_self).nonempty
    rw [List.length_cons]
    omega

/-! ### Sources -/

theorem tiles_tokenize (tags : LiteralTags) (source : String) :
    Tiles 0 (tokenize tags source) source.utf8ByteSize := by
  have whole := (lexemes_cut tags .markup source.toList).whole
  rw [List.append_nil] at whole
  have tiles := place_tiles 0 (lexemes tags .markup source.toList)
  rwa [whole, Nat.zero_add, byteLength_toList] at tiles

theorem isSound_of_mem_tokenize {tags : LiteralTags} {source : String} {token : Token}
    (member : token ∈ tokenize tags source) : token.IsSound source := by
  have cut := lexemes_cut tags .markup source.toList
  exact place_isSound [] [] cut.whole.symm cut.proper token member

/-- **The tokens of a source tile it.** There are at most as many as bytes. They stand one behind
the other from the first byte to the last; each takes at least one byte, stands between boundaries
of characters and has the slice of the source there, which for a kind with a fixed text is that
text. -/
theorem tokenize_tiles (tags : LiteralTags) (source : String) :
    (tokenize tags source).length ≤ source.utf8ByteSize ∧
      Tiles 0 (tokenize tags source) source.utf8ByteSize ∧
      ∀ token ∈ tokenize tags source,
        token.span.start < token.span.stop ∧
        (⟨token.span.start⟩ : String.Pos.Raw).IsValid source ∧
        (⟨token.span.stop⟩ : String.Pos.Raw).IsValid source ∧
        String.Pos.Raw.extract source ⟨token.span.start⟩ ⟨token.span.stop⟩ = token.text ∧
        ∀ text, token.kind.fixedText = some text → token.text = text := by
  have tiles := tiles_tokenize tags source
  refine ⟨?_, tiles, fun token member => ?_⟩
  · have count := length_le_of_tiles tiles fun token => isSound_of_mem_tokenize
    rwa [Nat.zero_add] at count
  · have sound := isSound_of_mem_tokenize member
    exact ⟨sound.nonempty, sound.reads.start_isValid, sound.reads.stop_isValid,
      sound.reads.extract, sound.fixed⟩

/-! ### Runs -/

/-- A token of a kind with a fixed text is as long as that text. -/
theorem Token.IsSound.stop_eq {source text : String} {token : Token} (sound : token.IsSound source)
    (fixed : token.kind.fixedText = some text) :
    token.span.stop = token.span.start + Text.byteLength text.toList := by
  rw [← sound.fixed text fixed]
  exact sound.reads.stop_eq

/-- The last tokens of a source, from an offset on. -/
structure Run (tags : LiteralTags) (source : String) (start : Nat) (tokens : List Token) :
    Prop where
  suffix : tokens <:+ tokenize tags source
  tiles : Tiles start tokens source.utf8ByteSize

theorem stopOf_cons (start : Nat) (token : Token) (rest : List Token) :
    stopOf start (token :: rest) = stopOf token.span.stop rest := by
  unfold stopOf
  rw [List.getLast?_cons]
  cases rest.getLast? <;> rfl

theorem joinTexts_cons (token : Token) (rest : List Token) :
    joinTexts (token :: rest) = token.text ++ joinTexts rest := by
  unfold joinTexts
  rw [List.map_cons, String.join_cons]

namespace Run

variable {tags : LiteralTags} {source : String} {start : Nat} {token : Token}
  {tokens rest : List Token}

/-- All tokens of a source. -/
theorem tokenize (tags : LiteralTags) (source : String) :
    Run tags source 0 (tokenize tags source) :=
  ⟨List.suffix_refl _, tiles_tokenize tags source⟩

theorem uncons (run : Run tags source start (token :: rest)) :
    token.span.start = start ∧ token.IsSound source ∧ Run tags source token.span.stop rest := by
  obtain ⟨suffix, place, tail⟩ := run
  exact ⟨place, isSound_of_mem_tokenize (suffix.mem List.mem_cons_self),
    (List.suffix_cons token rest).trans suffix, tail⟩

/-- A run begins between two characters or at an end of the source. -/
theorem isValid (run : Run tags source start tokens) :
    (⟨start⟩ : String.Pos.Raw).IsValid source := by
  cases tokens with
  | nil =>
    obtain rfl : start = source.utf8ByteSize := run.tiles
    exact String.Pos.Raw.isValid_rawEndPos
  | cons token rest =>
    obtain ⟨rfl, sound, _⟩ := run.uncons
    exact sound.reads.start_isValid

/-- The same tokens begin at one offset only. -/
theorem start_unique {other : Nat} (run : Run tags source start tokens)
    (again : Run tags source other tokens) : start = other := by
  cases tokens with
  | nil => exact run.tiles.trans again.tiles.symm
  | cons token rest => exact run.uncons.1.symm.trans again.uncons.1

/-! ### Tokens taken off -/

/-- What is left of a run behind its first tokens, and what those read. -/
theorem append {front : List Token} (run : Run tags source start (front ++ rest)) :
    Run tags source (stopOf start front) rest ∧
      (⟨start, stopOf start front⟩ : Span).Reads source (joinTexts front) := by
  induction front generalizing start with
  | nil => exact ⟨run, .empty run.isValid⟩
  | cons token front ih =>
    obtain ⟨rfl, sound, tail⟩ := run.uncons
    obtain ⟨left, reads⟩ := ih tail
    rw [stopOf_cons, joinTexts_cons]
    exact ⟨left, Span.Reads.append sound.reads reads⟩

/-- The same for the tokens that a reader has taken, known from the number of those that it left. -/
theorem taken (run : Run tags source start tokens) (suffix : rest <:+ Markup.tokenize tags source)
    (shorter : rest.length ≤ tokens.length) :
    Run tags source (stopOf start (tokens.take (tokens.length - rest.length))) rest ∧
      (⟨start, stopOf start (tokens.take (tokens.length - rest.length))⟩ : Span).Reads source
        (joinTexts (tokens.take (tokens.length - rest.length))) := by
  obtain ⟨front, rfl⟩ := List.suffix_of_suffix_length_le suffix run.suffix shorter
  rw [List.length_append, Nat.add_sub_cancel, List.take_left]
  exact run.append

theorem skipKind (kind : TokenKind) (run : Run tags source start tokens) :
    start ≤ (Markup.skipKind kind start tokens).1 ∧
      Run tags source (Markup.skipKind kind start tokens).1
        (Markup.skipKind kind start tokens).2 := by
  unfold Markup.skipKind
  split
  · exact ⟨Nat.le_refl _, run⟩
  next token rest =>
    split
    · obtain ⟨rfl, sound, tail⟩ := run.uncons
      exact ⟨sound.nonempty.le, tail⟩
    · exact ⟨Nat.le_refl _, run⟩

/-- A token of a kind is taken off, or none. -/
theorem takeKind (kind : TokenKind) (run : Run tags source start tokens) :
    Markup.takeKind kind tokens = (none, tokens) ∨
      ∃ token rest, Markup.takeKind kind tokens = (some token, rest) ∧ token.kind = kind ∧
        token.span.start = start ∧ token.IsSound source ∧ Run tags source token.span.stop rest := by
  unfold Markup.takeKind
  split
  · exact .inl rfl
  next token rest =>
    split
    next same => exact .inr ⟨token, rest, rfl, same, run.uncons⟩
    next => exact .inl rfl

/-- The place of a token that may be missing: where the run begins if it is. -/
def optionalSpan (start : Nat) (token : Option Token) : Span :=
  token.elim ⟨start, start⟩ fun token => token.span

/-- The text of a token that may be missing. -/
def optionalText (token : Option Token) : String := token.elim "" fun token => token.text

/-- A token that may be missing reads its text where the run begins, and a run is left behind it. -/
theorem optional (kind : TokenKind) (run : Run tags source start tokens) :
    (optionalSpan start (Markup.takeKind kind tokens).1).start = start ∧
      (optionalSpan start (Markup.takeKind kind tokens).1).Reads source
        (optionalText (Markup.takeKind kind tokens).1) ∧
      Run tags source (optionalSpan start (Markup.takeKind kind tokens).1).stop
        (Markup.takeKind kind tokens).2 := by
  rcases run.takeKind kind with same | ⟨token, rest, same, _, place, sound, left⟩
  · rw [same]
    exact ⟨rfl, .empty run.isValid, run⟩
  · rw [same]
    exact ⟨place, sound.reads, left⟩

theorem elim_stop (start : Nat) (token : Option Token) :
    (token.elim start fun token => token.span.stop) = (optionalSpan start token).stop := by
  cases token <;> rfl

theorem elim_span (start : Nat) (token : Option Token) :
    token.elim ⟨(optionalSpan start token).stop, (optionalSpan start token).stop⟩
      (fun token => token.span) = optionalSpan start token := by
  cases token <;> rfl

end Run

/-! ### Tokens passed over -/

/-- A run from an offset on, or from a later one. -/
def RunBeyond (tags : LiteralTags) (source : String) (start : Nat) (tokens : List Token) : Prop :=
  ∃ next, start ≤ next ∧ Run tags source next tokens

section Beyond

variable {tags : LiteralTags} {source : String} {start : Nat} {tokens : List Token}

theorem Run.beyond (run : Run tags source start tokens) : RunBeyond tags source start tokens :=
  ⟨start, Nat.le_refl start, run⟩

theorem RunBeyond.mono {less : Nat} (run : RunBeyond tags source start tokens) (le : less ≤ start) :
    RunBeyond tags source less tokens := by
  obtain ⟨next, ge, left⟩ := run
  exact ⟨next, Nat.le_trans le ge, left⟩

/-- Whatever is dropped in front, a run is left. -/
theorem RunBeyond.drop (count : Nat) (run : RunBeyond tags source start tokens) :
    RunBeyond tags source start (tokens.drop count) := by
  obtain ⟨next, le, left⟩ := run
  rw [← List.take_append_drop count tokens] at left
  obtain ⟨behind, reads⟩ := left.append
  exact ⟨_, Nat.le_trans le reads.start_le_stop, behind⟩

theorem RunBeyond.dropWhile (skipped : Token → Bool) (run : RunBeyond tags source start tokens) :
    RunBeyond tags source start (tokens.dropWhile skipped) := by
  obtain ⟨next, le, left⟩ := run
  rw [← List.takeWhile_append_dropWhile (p := skipped) (l := tokens)] at left
  obtain ⟨behind, reads⟩ := left.append
  exact ⟨_, Nat.le_trans le reads.start_le_stop, behind⟩

/-- The tokens that are left do not depend on the offset that is kept when none is taken. -/
theorem Run.skipKind_beyond (kind : TokenKind) (stop : Nat) (run : Run tags source start tokens) :
    RunBeyond tags source start (Markup.skipKind kind stop tokens).2 := by
  obtain ⟨le, left⟩ := run.skipKind kind
  refine ⟨_, le, ?_⟩
  have same : (Markup.skipKind kind stop tokens).2 = (Markup.skipKind kind start tokens).2 := by
    unfold Markup.skipKind
    split
    · rfl
    · split <;> rfl
  rwa [same]

end Beyond

end PromptMarkup.Markup
