/-
**Filtered text.**

In text that is filtered only the words count. A paragraph of such pieces reads its words with one
space between any two of them, and it does not matter where the pieces end: inside of a word, inside
of a row of blanks, or behind it.

* `Text.words`, `Text.spaced`: the words of a text, and a text of them;
* `collapseFrom`: blanks in a row as one space, for a text that goes on behind another one;
* `chars_collapseRuns`, `chars_normalizeFrom`: pieces are collapsed as their texts are;
* `Text.trimEnd_collapseFrom`: what is collapsed and trimmed is the words;
* `text_ofInline_filtered`: the text of a paragraph of filtered pieces.
-/

import PromptMarkup.Proofs.Output.FragmentText

namespace PromptMarkup

open Text (isBlank isBlankText)

/-! ### Words -/

namespace Text

/-- The words of a text: what stands between its blanks. -/
def words (chars : List Char) : List (List Char) :=
  (chars.splitOnP isBlank).filter fun word => !word.isEmpty

/-- A text with every row of blanks replaced by one space, and none at the ends. -/
def spaced (chars : List Char) : List Char := [' '].intercalate (words chars)

variable {char : Char} {rest : List Char}

/-- A blank in front belongs to no word. -/
theorem words_blank (blank : isBlank char) : words (char :: rest) = words rest := by
  unfold words
  rw [List.splitOnP_cons_eq_if_modifyHead, if_pos blank]
  rfl

/-- A character in front of a blank, or of nothing, is a word of its own. -/
theorem words_alone (solid : isBlank char = false) (ends : ∀ next ∈ rest.head?, isBlank next) :
    words (char :: rest) = [char] :: words rest := by
  unfold words
  rw [List.splitOnP_cons_eq_if_modifyHead, if_neg (by simp [solid])]
  cases rest with
  | nil => rfl
  | cons next later =>
    rw [List.splitOnP_cons_eq_if_modifyHead, if_pos (ends next rfl)]
    rfl

/-- A character in front of another one belongs to the word of that one. -/
theorem words_joined {next : Char} (solid : isBlank char = false) (goesOn : isBlank next = false) :
    ∃ word others, words (next :: rest) = word :: others ∧
      words (char :: next :: rest) = (char :: word) :: others := by
  unfold words
  obtain ⟨first, others, split⟩ :=
    List.exists_cons_of_ne_nil (List.splitOnP_ne_nil isBlank rest)
  refine ⟨next :: first, others.filter fun word => !word.isEmpty, ?_, ?_⟩
  · rw [List.splitOnP_cons_eq_if_modifyHead, if_neg (by simp [goesOn]), split]
    rfl
  · rw [List.splitOnP_cons_eq_if_modifyHead, if_neg (by simp [solid]),
      List.splitOnP_cons_eq_if_modifyHead, if_neg (by simp [goesOn]), split]
    rfl

end Text

/-! ### Blanks in a row -/

/-- A text with blanks in a row as one space, and with none if the text in front ends in a blank. -/
def collapseFrom (afterBlank : Bool) : List Char → List Char
  | [] => []
  | char :: rest =>
    if !isBlank char then char :: collapseFrom false rest
    else if afterBlank then collapseFrom true rest
    else ' ' :: collapseFrom true rest

/-- A text ends in a blank, or nothing of it stands behind one. -/
def endsBlank (afterBlank : Bool) (chars : List Char) : Bool :=
  chars.foldl (fun _ char => isBlank char) afterBlank

theorem collapseFrom_append (afterBlank : Bool) (first second : List Char) :
    collapseFrom afterBlank (first ++ second) =
      collapseFrom afterBlank first ++ collapseFrom (endsBlank afterBlank first) second := by
  induction first generalizing afterBlank with
  | nil => rfl
  | cons char rest ih =>
    simp only [List.cons_append, collapseFrom, ih]
    by_cases blank : isBlank char
    · cases afterBlank <;> simp [blank, endsBlank]
    · simp [blank, endsBlank]

theorem endsBlank_append (afterBlank : Bool) (first second : List Char) :
    endsBlank afterBlank (first ++ second) = endsBlank (endsBlank afterBlank first) second :=
  List.foldl_append

/-- A run is blank throughout, or nowhere. -/
def IsRun (blank : Bool) (chars : List Char) : Prop :=
  chars ≠ [] ∧ ∀ char ∈ chars, isBlank char = blank

/-- A text is cut into runs. -/
theorem exists_isRun {chars run : List Char}
    (member : run ∈ chars.splitBy fun first second => isBlank first = isBlank second) :
    ∃ blank, IsRun blank run := by
  have some := List.ne_nil_of_mem_splitBy member
  have chain := List.isChain_of_mem_splitBy member
  clear member
  induction run with
  | nil => exact absurd rfl some
  | cons char rest ih =>
    cases rest with
    | nil => exact ⟨isBlank char, some, List.forall_mem_singleton.mpr rfl⟩
    | cons next later =>
      obtain ⟨same, chain⟩ := List.isChain_cons_cons.mp chain
      obtain ⟨blank, -, all⟩ := ih (List.cons_ne_nil next later) chain
      have here : isBlank char = blank :=
        (of_decide_eq_true same).trans (all next List.mem_cons_self)
      exact ⟨blank, some, List.forall_mem_cons.mpr ⟨here, all⟩⟩

/-- Behind a blank nothing is left of blanks. -/
theorem collapseFrom_blanks {chars : List Char} (blank : ∀ char ∈ chars, isBlank char) :
    collapseFrom true chars = [] := by
  induction chars with
  | nil => rfl
  | cons char rest ih =>
    obtain ⟨here, later⟩ := List.forall_mem_cons.mp blank
    simp [collapseFrom, here, ih later]

theorem collapseFrom_solid (afterBlank : Bool) {chars : List Char}
    (solid : ∀ char ∈ chars, isBlank char = false) : collapseFrom afterBlank chars = chars := by
  induction chars generalizing afterBlank with
  | nil => rfl
  | cons char rest ih =>
    obtain ⟨here, later⟩ := List.forall_mem_cons.mp solid
    simp [collapseFrom, here, ih false later]

/-- What is left of a run: all of it, or one space, or nothing. -/
theorem collapseFrom_run (afterBlank : Bool) {blank : Bool} {chars : List Char}
    (run : IsRun blank chars) :
    collapseFrom afterBlank chars =
      if !blank then chars else if afterBlank then [] else [' '] := by
  obtain ⟨some, all⟩ := run
  cases blank with
  | false => exact collapseFrom_solid afterBlank all
  | true =>
    cases afterBlank with
    | true => exact collapseFrom_blanks all
    | false =>
      obtain ⟨char, rest, rfl⟩ := List.exists_cons_of_ne_nil some
      obtain ⟨here, later⟩ := List.forall_mem_cons.mp all
      simp [collapseFrom, here, collapseFrom_blanks later]

theorem endsBlank_run (afterBlank : Bool) {blank : Bool} {chars : List Char}
    (run : IsRun blank chars) : endsBlank afterBlank chars = blank := by
  obtain ⟨some, all⟩ := run
  induction chars generalizing afterBlank with
  | nil => exact absurd rfl some
  | cons char rest ih =>
    obtain ⟨here, later⟩ := List.forall_mem_cons.mp all
    cases rest with
    | nil => exact here
    | cons next more => exact ih (isBlank char) (List.cons_ne_nil next more) later

theorem isBlankText_run {blank : Bool} {chars : List Char} (run : IsRun blank chars) :
    isBlankText (String.ofList chars) = blank := by
  obtain ⟨some, all⟩ := run
  unfold isBlankText
  rw [String.toList_ofList]
  cases blank with
  | true => exact List.all_eq_true.mpr all
  | false =>
    obtain ⟨char, rest, rfl⟩ := List.exists_cons_of_ne_nil some
    simp [(List.forall_mem_cons.mp all).1]

/-! ### Pieces -/

/-- The runs of a piece are collapsed as their text is. -/
theorem chars_collapseRuns (piece : Piece) (afterBlank : Bool) (offset : Nat)
    (runs : List (List Char)) (all : ∀ run ∈ runs, ∃ blank, IsRun blank run) :
    Fragment.chars (collapseRuns afterBlank (piece.slicesFrom offset runs)).1 =
        collapseFrom afterBlank runs.flatten ∧
      (collapseRuns afterBlank (piece.slicesFrom offset runs)).2 =
        endsBlank afterBlank runs.flatten := by
  induction runs generalizing afterBlank offset with
  | nil => exact ⟨rfl, rfl⟩
  | cons run rest ih =>
    obtain ⟨⟨blank, here⟩, later⟩ := List.forall_mem_cons.mp all
    obtain ⟨chars, last⟩ := ih blank (offset + Text.byteLength run) later
    have text : (piece.slice offset run).text = String.ofList run := rfl
    rw [List.flatten_cons, collapseFrom_append, endsBlank_append, collapseFrom_run afterBlank here,
      endsBlank_run afterBlank here]
    unfold Piece.slicesFrom collapseRuns
    simp only [text, isBlankText_run here]
    cases blank with
    | false => exact ⟨by simp [text, chars], last⟩
    | true =>
      cases afterBlank with
      | true => exact ⟨by simp [chars], last⟩
      | false => exact ⟨by simp [chars, Piece.synthetic, Piece.ofText], last⟩

namespace InlinePiece

/-- Pieces of a paragraph whose blanks are filtered. -/
def AreFiltered (run : List InlinePiece) : Prop := ∀ inline ∈ run, inline.spacing = some .filter

/-- The text of the pieces of a paragraph. -/
def chars (run : List InlinePiece) : List Char := run.flatMap fun inline => inline.piece.text.toList

end InlinePiece

/-- **Filtered pieces are collapsed as their text is**, wherever it is cut. -/
theorem chars_normalizeFrom (afterBlank : Bool) {run : List InlinePiece}
    (filtered : InlinePiece.AreFiltered run) :
    Fragment.chars (normalizeFrom afterBlank run) =
      collapseFrom afterBlank (InlinePiece.chars run) := by
  induction run generalizing afterBlank with
  | nil => rfl
  | cons inline rest ih =>
    obtain ⟨piece, spacing⟩ := inline
    obtain ⟨here, later⟩ := List.forall_mem_cons.mp filtered
    obtain ⟨chars, last⟩ := chars_collapseRuns piece afterBlank 0
      (piece.text.toList.splitBy fun first second => isBlank first = isBlank second)
      fun run => exists_isRun
    rw [List.flatten_splitBy] at chars last
    unfold normalizeFrom InlinePiece.chars
    rw [if_pos here, List.flatMap_cons, collapseFrom_append, ← last, ← chars]
    exact (Fragment.chars_append _ _).trans (congrArg _ (ih _ later))

theorem isBare_slicesFrom (piece : Piece) (offset : Nat) (texts : List (List Char)) :
    Fragment.IsBare (piece.slicesFrom offset texts) := by
  induction texts generalizing offset with
  | nil => exact fun _ member => by cases member
  | cons chars rest ih => exact Fragment.isBare_cons.mpr ⟨rfl, ih _⟩

/-- No attachment is left of filtered pieces. -/
theorem isBare_filtered (afterBlank : Bool) {run : List InlinePiece}
    (filtered : InlinePiece.AreFiltered run) : Fragment.IsBare (normalizeFrom afterBlank run) := by
  induction run generalizing afterBlank with
  | nil => exact fun _ member => by cases member
  | cons inline rest ih =>
    obtain ⟨piece, spacing⟩ := inline
    obtain ⟨here, later⟩ := List.forall_mem_cons.mp filtered
    have runs : Fragment.bareness.Covers piece.runs := isBare_slicesFrom piece 0 _
    unfold normalizeFrom
    rw [if_pos here]
    exact Fragment.isBare_append.mpr ⟨PieceLaw.covers_collapseRuns afterBlank runs, ih _ later⟩

/-! ### Paragraphs -/

namespace Text

/-- No blank stands in front of what is collapsed behind a blank. -/
theorem trimStart_collapseFrom (chars : List Char) :
    trimStartBy isBlank (collapseFrom true chars) = collapseFrom true chars := by
  induction chars with
  | nil => rfl
  | cons char rest ih =>
    by_cases blank : isBlank char
    · simpa [collapseFrom, blank] using ih
    · simp [collapseFrom, blank, trimStartBy]

theorem spaced_cons (word : List Char) (others : List (List Char)) :
    [' '].intercalate (word :: others) =
      word ++ if others = [] then [] else ' ' :: [' '].intercalate others := by
  cases others <;> simp [List.intercalate_cons_cons]

/-- A character that is kept. -/
theorem trimEndBy_cons {char : Char} (solid : isBlank char = false) (rest : List Char) :
    trimEndBy isBlank (char :: rest) = char :: trimEndBy isBlank rest := by
  have single : trimEndBy isBlank [char] = [char] := by simp [trimEndBy, solid]
  have split := Fragment.trimEndBy_append isBlank [char] rest
  rw [List.singleton_append, single] at split
  rw [split]
  split
  next empty => rw [empty]
  next => rfl

theorem spaced_eq_nil {chars : List Char} : spaced chars = [] ↔ words chars = [] := by
  refine ⟨fun empty => ?_, fun none => by rw [spaced, none]; rfl⟩
  by_contra some
  obtain ⟨word, others, same⟩ := List.exists_cons_of_ne_nil some
  have solid : word ≠ [] := by
    have member : word ∈ words chars := same ▸ List.mem_cons_self
    simpa using (List.mem_filter.mp member).2
  rw [spaced, same, spaced_cons] at empty
  exact solid (List.append_eq_nil_iff.mp empty).1

/-- In front of a character the text is one longer. -/
theorem spaced_solid {char : Char} (solid : isBlank char = false) (rest : List Char) :
    words (char :: rest) ≠ [] ∧ spaced (char :: rest) = char ::
      if words rest = [] then [] else
        if rest.head?.any isBlank then ' ' :: spaced rest else spaced rest := by
  unfold spaced
  cases rest with
  | nil =>
    rw [words_alone solid (by simp)]
    exact ⟨List.cons_ne_nil _ _, rfl⟩
  | cons next later =>
    by_cases blank : isBlank next
    · rw [words_alone solid (by simpa using blank), spaced_cons]
      exact ⟨List.cons_ne_nil _ _, by simp [blank]⟩
    · obtain ⟨word, others, here, joined⟩ := words_joined solid (Bool.eq_false_iff.mpr blank)
      rw [joined, here, spaced_cons, spaced_cons]
      exact ⟨List.cons_ne_nil _ _, by simp [blank]⟩

/-- **What is collapsed and trimmed is the words.** Behind a character the text goes on with its
word, or with the space in front of the next one. -/
theorem trimEnd_collapseFrom (chars : List Char) :
    trimEndBy isBlank (collapseFrom true chars) = spaced chars ∧
      trimEndBy isBlank (collapseFrom false chars) =
        if words chars = [] then [] else
          if chars.head?.any isBlank then ' ' :: spaced chars else spaced chars := by
  induction chars with
  | nil => exact ⟨rfl, rfl⟩
  | cons char rest ih =>
    obtain ⟨behind, inside⟩ := ih
    by_cases blank : isBlank char
    · have same : spaced (char :: rest) = spaced rest := by rw [spaced, words_blank blank, spaced]
      have split := Fragment.trimEndBy_append isBlank [' '] (collapseFrom true rest)
      have space : trimEndBy isBlank [' '] = [] := by decide
      simp only [List.singleton_append, behind, spaced_eq_nil, space] at split
      rw [words_blank blank, same]
      refine ⟨?_, ?_⟩
      · simpa [collapseFrom, blank] using behind
      · simpa [collapseFrom, blank] using split
    · have solid : isBlank char = false := by simpa using blank
      obtain ⟨some, longer⟩ := spaced_solid solid rest
      have kept : ∀ afterBlank,
          trimEndBy isBlank (collapseFrom afterBlank (char :: rest)) = spaced (char :: rest) := by
        intro afterBlank
        rw [longer, ← inside, ← trimEndBy_cons solid]
        simp [collapseFrom, solid]
      refine ⟨kept true, ?_⟩
      rw [if_neg some, kept false]
      simp [solid]

end Text

/-- **Filtered text is its words**: every row of blanks becomes one space, and none is left at the
ends. So pieces of the same text make the same paragraph, wherever they are cut. -/
theorem text_ofInline_filtered {container : Spacing} (loose : container ≠ .pre)
    {run : List InlinePiece} (filtered : InlinePiece.AreFiltered run) :
    (Fragment.ofInline container run).text =
        String.ofList (Text.spaced (InlinePiece.chars run)) ∧
      ∀ (other : Spacing) (pieces : List InlinePiece), other ≠ .pre →
        InlinePiece.AreFiltered pieces → InlinePiece.chars pieces = InlinePiece.chars run →
        (Fragment.ofInline other pieces).text = (Fragment.ofInline container run).text := by
  have words : ∀ (spacing : Spacing) (pieces : List InlinePiece), spacing ≠ .pre →
      InlinePiece.AreFiltered pieces → (Fragment.ofInline spacing pieces).text =
        String.ofList (Text.spaced (InlinePiece.chars pieces)) := by
    intro spacing pieces loose filtered
    unfold Fragment.ofInline
    simp only [if_neg loose]
    rw [Fragment.text_eq, Fragment.trim, Fragment.chars_trimBy _ _ (isBare_filtered true filtered),
      chars_normalizeFrom true filtered, Text.trimStart_collapseFrom,
      (Text.trimEnd_collapseFrom _).1]
  refine ⟨words container run loose filtered, fun other pieces apart clean same => ?_⟩
  rw [words other pieces apart clean, words container run loose filtered, same]

/-- Pieces that end inside of a word, and on both sides of a blank that is no space. -/
def cutPieces : List InlinePiece :=
  ["  hel", "lo ", "\u00A0\n", "", "world \n"].map fun text =>
    ⟨⟨text, ⟨0, 0⟩, false, none⟩, some .filter⟩

theorem text_ofInline_filtered_cutPieces :
    Spacing.filter ≠ .pre ∧ InlinePiece.AreFiltered cutPieces ∧
      (Fragment.ofInline .filter cutPieces).text = "hello world" := by
  have loose : Spacing.filter ≠ .pre := by decide
  have filtered : InlinePiece.AreFiltered cutPieces := by
    intro inline member
    obtain ⟨text, -, rfl⟩ := List.mem_map.mp member
    rfl
  exact ⟨loose, filtered, (text_ofInline_filtered loose filtered).1.trans (by decide)⟩

end PromptMarkup
