/-
**Blank text in paragraphs.**

Blank text at an end of a paragraph is not seen unless the block around it keeps blanks. A row of
blocks reads the same without its blank text, as long as no blank text parts two inline blocks.

* `normalizeFrom_append`, `normalizeFrom_blank`: what the pieces of a paragraph become;
* `chars_ofInline_blank`: blank pieces at the ends of a paragraph;
* `partsWords`: blank text stands between two inline blocks;
* `chars_contents_shownBlocks`: a row of blocks without its blank text.
-/

import Mathlib.Data.List.SplitBy
import PromptMarkup.Proofs.Output.PlainLayout

namespace PromptMarkup

open Text (isBlank isBlankText trimStartBy trimEndBy)

/-! ### Blank pieces -/

/-- The runs of a blank piece are blank. -/
theorem isBlank_of_mem_runs {piece run : Piece} (blank : piece.isBlank)
    (member : run ∈ piece.runs) :
    run.isBlank := by
  have texts : ∀ chars ∈ piece.text.toList.splitBy
      (fun first second => isBlank first = isBlank second), chars.all isBlank := by
    intro chars inside
    refine List.all_eq_true.mpr fun char found => ?_
    have listed := List.mem_flatten_of_mem inside found
    rw [List.flatten_splitBy] at listed
    unfold Piece.isBlank at blank
    rw [Bool.and_eq_true] at blank
    exact List.all_eq_true.mp blank.2 char listed
  unfold Piece.runs Piece.cutBy at member
  generalize piece.text.toList.splitBy _ = parts at texts member
  generalize 0 = offset at member
  induction parts generalizing offset with
  | nil => cases member
  | cons chars rest ih =>
    obtain ⟨here, later⟩ := List.forall_mem_cons.mp texts
    rcases List.mem_cons.mp member with rfl | inside
    · show isBlankText (String.ofList chars) = true
      unfold isBlankText
      rwa [String.toList_ofList]
    · exact ih later _ inside

/-- Behind a blank nothing is left of blank runs. -/
theorem collapseRuns_blank {runs : List Piece} (blank : ∀ run ∈ runs, run.isBlank) :
    collapseRuns true runs = ([], true) := by
  induction runs with
  | nil => rfl
  | cons run rest ih =>
    obtain ⟨here, later⟩ := List.forall_mem_cons.mp blank
    unfold Piece.isBlank at here
    rw [Bool.and_eq_true] at here
    unfold collapseRuns
    simp only [here.2, ih later, Bool.not_true, Bool.false_eq_true, if_false, if_true]

/-- Blank runs become blanks. -/
theorem isBlank_collapseRuns (afterBlank : Bool) {runs : List Piece}
    (blank : ∀ run ∈ runs, run.isBlank) : Fragment.isBlank (collapseRuns afterBlank runs).1 := by
  cases runs with
  | nil => rfl
  | cons run rest =>
    obtain ⟨here, later⟩ := List.forall_mem_cons.mp blank
    unfold Piece.isBlank at here
    rw [Bool.and_eq_true] at here
    unfold collapseRuns
    simp only [here.2, collapseRuns_blank later, Bool.not_true, Bool.false_eq_true, if_false]
    split
    · rfl
    · show ((true && isBlankText " ") && true) = true
      decide

theorem normalizeFrom_cons (afterBlank : Bool) (piece : Piece) (spacing : Option Spacing)
    (rest : List InlinePiece) :
    normalizeFrom afterBlank (⟨piece, spacing⟩ :: rest) =
      if spacing = some .filter then
        (collapseRuns afterBlank piece.runs).1 ++
          normalizeFrom (collapseRuns afterBlank piece.runs).2 rest
      else if piece.isVoid then normalizeFrom afterBlank rest
      else piece :: normalizeFrom (piece.text.toList.getLast?.any isBlank) rest := rfl

/-- A paragraph is made piece by piece. -/
theorem normalizeFrom_append (afterBlank : Bool) (first second : List InlinePiece) :
    ∃ after, normalizeFrom afterBlank (first ++ second) =
      normalizeFrom afterBlank first ++ normalizeFrom after second := by
  induction first generalizing afterBlank with
  | nil => exact ⟨afterBlank, rfl⟩
  | cons inline rest ih =>
    obtain ⟨piece, spacing⟩ := inline
    simp only [List.cons_append, normalizeFrom_cons]
    by_cases filtered : spacing = some .filter
    · obtain ⟨after, found⟩ := ih (collapseRuns afterBlank piece.runs).2
      refine ⟨after, ?_⟩
      rw [if_pos filtered, if_pos filtered, found, List.append_assoc]
    · by_cases void : piece.isVoid
      · obtain ⟨after, found⟩ := ih afterBlank
        refine ⟨after, ?_⟩
        rw [if_neg filtered, if_neg filtered, if_pos void, if_pos void, found]
      · obtain ⟨after, found⟩ := ih (piece.text.toList.getLast?.any isBlank)
        refine ⟨after, ?_⟩
        rw [if_neg filtered, if_neg filtered, if_neg void, if_neg void, found, List.cons_append]

/-- Pieces of a paragraph without text other than blanks. -/
def InlinePiece.AreBlank (run : List InlinePiece) : Prop :=
  ∀ inline ∈ run, inline.piece.isBlank

/-- Blank pieces become blanks, and behind a blank they leave no trace in what follows. -/
theorem normalizeFrom_blank {run : List InlinePiece} (blank : InlinePiece.AreBlank run) :
    (∀ afterBlank, Fragment.isBlank (normalizeFrom afterBlank run)) ∧
      ∀ rest, ∃ blanks, Fragment.isBlank blanks ∧
        normalizeFrom true (run ++ rest) = blanks ++ normalizeFrom true rest := by
  induction run with
  | nil => exact ⟨fun _ => rfl, fun rest => ⟨[], rfl, rfl⟩⟩
  | cons inline later ih =>
    obtain ⟨piece, spacing⟩ := inline
    obtain ⟨here, blankLater⟩ := List.forall_mem_cons.mp blank
    obtain ⟨all, behind⟩ := ih blankLater
    have runs : ∀ run ∈ piece.runs, run.isBlank := fun run => isBlank_of_mem_runs here
    simp only [List.cons_append, normalizeFrom_cons]
    by_cases filtered : spacing = some .filter
    · simp only [if_pos filtered]
      refine ⟨fun afterBlank => ?_, fun rest => ?_⟩
      · unfold Fragment.isBlank at all ⊢
        rw [List.all_append, all, Bool.and_true]
        exact isBlank_collapseRuns afterBlank runs
      · obtain ⟨blanks, hidden, same⟩ := behind rest
        refine ⟨blanks, hidden, ?_⟩
        rw [collapseRuns_blank runs, List.nil_append, same]
    · simp only [if_neg filtered]
      by_cases void : piece.isVoid
      · simp only [if_pos void]
        exact ⟨all, behind⟩
      · simp only [if_neg void]
        have last : piece.text.toList.getLast?.any isBlank = true := by
          unfold Piece.isBlank at here
          rw [Bool.and_eq_true] at here
          unfold Piece.isVoid at void
          rw [here.1, Bool.and_true] at void
          have some : piece.text.toList ≠ [] := fun empty =>
            void (String.isEmpty_iff.mpr (String.toList_eq_nil_iff.mp empty))
          rw [List.getLast?_eq_some_getLast some]
          exact List.all_eq_true.mp here.2 _ (List.getLast_mem some)
        refine ⟨fun afterBlank => ?_, fun rest => ?_⟩
        · unfold Fragment.isBlank at all ⊢
          rw [List.all_cons, here, all]
          rfl
        · obtain ⟨blanks, hidden, same⟩ := behind rest
          refine ⟨piece :: blanks, ?_, ?_⟩
          · unfold Fragment.isBlank at hidden ⊢
            rw [List.all_cons, here, hidden]
            rfl
          · rw [last, same]
            rfl

/-! ### Ends of paragraphs -/

/-- Trimming takes off blanks at the ends. -/
theorem trim_append_blank {front back : List Char} (chars : List Char)
    (blankFront : front.all isBlank) (blankBack : back.all isBlank) :
    trimEndBy isBlank (trimStartBy isBlank (front ++ chars ++ back)) =
      trimEndBy isBlank (trimStartBy isBlank chars) := by
  unfold trimStartBy
  rw [List.append_assoc, List.dropWhile_append_of_pos (List.all_eq_true.mp blankFront),
    List.dropWhile_append]
  split
  next empty =>
    have none : back.dropWhile isBlank = [] :=
      List.dropWhile_eq_nil_iff.mpr (List.all_eq_true.mp blankBack)
    rw [none, List.isEmpty_iff.mp empty]
  next =>
    have none : trimEndBy isBlank back = [] :=
      List.rdropWhile_eq_nil_iff.mpr (List.all_eq_true.mp blankBack)
    rw [Fragment.trimEndBy_append, if_pos none]

theorem all_chars_of_isBlank {fragment : Fragment} (blank : fragment.isBlank) :
    fragment.chars.all isBlank := by
  have bare := Fragment.isBare_iff.mpr (Fragment.attachments_of_isBlank blank)
  rwa [← Fragment.isBlank_eq bare]

/-- **Blank pieces at the ends of a paragraph are not seen.** -/
theorem chars_ofInline_blank {container : Spacing} (loose : container ≠ .pre)
    {front run back : List InlinePiece} (bare : InlinePiece.AreBare run)
    (blankFront : InlinePiece.AreBlank front) (blankBack : InlinePiece.AreBlank back) :
    (Fragment.ofInline container (front ++ run ++ back)).chars =
      (Fragment.ofInline container run).chars := by
  obtain ⟨blanks, hidden, same⟩ := (normalizeFrom_blank blankFront).2 (run ++ back)
  obtain ⟨after, split⟩ := normalizeFrom_append true run back
  have behind := (normalizeFrom_blank blankBack).1 after
  have runBare := isBare_normalizeFrom true bare
  have allBare : Fragment.IsBare (blanks ++ (normalizeFrom true run ++ normalizeFrom after back)) :=
    Fragment.isBare_append.mpr ⟨Fragment.isBare_iff.mpr (Fragment.attachments_of_isBlank hidden),
      Fragment.isBare_append.mpr
        ⟨runBare, Fragment.isBare_iff.mpr (Fragment.attachments_of_isBlank behind)⟩⟩
  unfold Fragment.ofInline
  simp only [if_neg loose]
  rw [List.append_assoc, same, split]
  unfold Fragment.trim
  rw [Fragment.chars_trimBy _ _ allBare, Fragment.chars_trimBy _ _ runBare, Fragment.chars_append,
    Fragment.chars_append, ← List.append_assoc]
  exact trim_append_blank _ (all_chars_of_isBlank hidden) (all_chars_of_isBlank behind)

/-- A paragraph of blank pieces is blank. -/
theorem isBlank_ofInline (container : Spacing) {run : List InlinePiece}
    (blank : InlinePiece.AreBlank run) : (Fragment.ofInline container run).isBlank := by
  have pieces := (normalizeFrom_blank blank).1 true
  have bare := Fragment.isBare_iff.mpr (Fragment.attachments_of_isBlank pieces)
  unfold Fragment.ofInline
  simp only
  split
  · exact pieces
  · have nothing := trim_append_blank [] (all_chars_of_isBlank pieces) List.all_nil
    rw [List.append_nil, List.append_nil] at nothing
    unfold Fragment.trim
    rw [Fragment.isBlank_eq (Fragment.isBare_trimBy _ _ bare), Fragment.chars_trimBy _ _ bare,
      nothing]
    rfl

/-! ### Rows of blocks -/

/-- Blank text stands between two inline blocks that are no blank text themselves. `left` says that
the last of those in front is inline, and `gap` that blank text follows it. -/
def partsWordsFrom (left gap : Bool) : List Block → Bool
  | [] => false
  | block :: rest =>
    if block.isBlankText then partsWordsFrom left true rest
    else (left && gap && block.isInline) || partsWordsFrom block.isInline false rest

/-- Blank text stands between two inline blocks of a row. -/
def partsWords (blocks : List Block) : Bool := partsWordsFrom false false blocks

/-- The blocks of a row that are not blank text. -/
def shownBlocks (blocks : List Block) : List Block := blocks.filter fun block => !block.isBlankText

/-- The texts of the paragraphs and other blocks that are shown are the same. -/
theorem map_chars_visible {first second : Fragment} (bareFirst : first.IsBare)
    (bareSecond : second.IsBare) (same : first.chars = second.chars) :
    (visible first).map Fragment.chars = (visible second).map Fragment.chars := by
  unfold visible
  rw [Fragment.isBlank_eq bareFirst, Fragment.isBlank_eq bareSecond, same]
  split
  · rfl
  · exact congrArg (fun chars => [chars]) same

theorem isInline_layOut (rendition : Rendition) (context : LayoutContext) (block : Block) :
    (layOut rendition context block).isInline = block.isInline := by
  obtain ⟨kind, presentation, speaker, spacing, children, span⟩ := block
  rfl

/-- A block of blank text is laid out as a blank piece. -/
theorem layOut_blankText (rendition : Rendition) (context : LayoutContext) {block : Block}
    (blank : block.isBlankText) :
    (layOut rendition context block).isInline = true ∧
      InlinePiece.AreBlank (layOut rendition context block).inline := by
  obtain ⟨kind, presentation, speaker, spacing, children, span⟩ := block
  cases kind with
  | text value exact => exact ⟨rfl, List.forall_mem_singleton.mpr blank⟩
  | _ => cases blank

theorem areBlank_nil : InlinePiece.AreBlank [] := fun _ member => by cases member

theorem InlinePiece.AreBlank.areBare {run : List InlinePiece} (blank : InlinePiece.AreBlank run) :
    InlinePiece.AreBare run := by
  intro inline member
  have here := blank inline member
  unfold Piece.isBlank at here
  rw [Bool.and_eq_true] at here
  exact Option.isNone_iff_eq_none.mp here.1

/-- Nothing is shown of a row of blank text behind blank pieces. -/
theorem groupsFrom_blank (spacing : Spacing) (rendition : Rendition) (context : LayoutContext)
    {run : List InlinePiece} {blocks : List Block} (blankRun : InlinePiece.AreBlank run)
    (blank : ∀ block ∈ blocks, block.isBlankText) :
    groupsFrom spacing run (layOutAll rendition context blocks) = [] := by
  induction blocks generalizing run with
  | nil =>
    show visible (.ofInline spacing run) = []
    unfold visible
    rw [if_pos (isBlank_ofInline spacing blankRun)]
  | cons block rest ih =>
    obtain ⟨here, later⟩ := List.forall_mem_cons.mp blank
    obtain ⟨inline, pieces⟩ := layOut_blankText rendition context here
    rw [layOutAll, groupsFrom, if_pos inline]
    exact ih (List.forall_mem_append.mpr ⟨blankRun, pieces⟩) later

section Rows

variable {spacing : Spacing} (loose : spacing ≠ .pre) (context : LayoutContext)
include loose

/-- The paragraph in front of a block is the same without blank pieces at its ends. -/
theorem map_chars_visible_ofInline {front run back : List InlinePiece}
    (bare : InlinePiece.AreBare run) (blankFront : InlinePiece.AreBlank front)
    (blankBack : InlinePiece.AreBlank back) :
    (visible (.ofInline spacing (front ++ run ++ back))).map Fragment.chars =
      (visible (.ofInline spacing run)).map Fragment.chars := by
  refine map_chars_visible (isBare_ofInline spacing ?_) (isBare_ofInline spacing bare)
    (chars_ofInline_blank loose bare blankFront blankBack)
  exact InlinePiece.areBare_append.mpr
    ⟨InlinePiece.areBare_append.mpr ⟨blankFront.areBare, bare⟩, blankBack.areBare⟩

/-- Some blocks read the same without their blank text. In front of them stands a paragraph with
blank pieces at its ends; `left` and `gap` say what there is of it. -/
theorem map_chars_groupsFrom {blocks : List Block} {left gap : Bool}
    (front run back : List InlinePiece) (kept : partsWordsFrom left gap blocks = false)
    (noLeft : left = false → run = []) (noGap : gap = false → back = [])
    (bare : InlinePiece.AreBare run) (blankFront : InlinePiece.AreBlank front)
    (blankBack : InlinePiece.AreBlank back) :
    (groupsFrom spacing (front ++ run ++ back) (layOutAll .plain context blocks)).map
        Fragment.chars =
      (groupsFrom spacing run (layOutAll .plain context (shownBlocks blocks))).map
        Fragment.chars := by
  induction blocks generalizing left gap front run back with
  | nil => exact map_chars_visible_ofInline loose bare blankFront blankBack
  | cons block rest ih =>
    have laid := isBare_layOut context block
    unfold partsWordsFrom at kept
    unfold shownBlocks
    rw [layOutAll, groupsFrom, isInline_layOut]
    by_cases blank : block.isBlankText
    · -- Blank text joins the blank pieces at the end.
      obtain ⟨inline, pieces⟩ := layOut_blankText .plain context blank
      rw [isInline_layOut] at inline
      rw [if_pos blank] at kept
      rw [if_pos inline, List.filter_cons_of_neg (by rw [blank]; decide), List.append_assoc]
      exact ih front run _ kept noLeft (fun absurd => by cases absurd) bare blankFront
        (List.forall_mem_append.mpr ⟨blankBack, pieces⟩)
    · rw [if_neg blank, Bool.or_eq_false_iff] at kept
      rw [List.filter_cons_of_pos (by simpa using blank), layOutAll, groupsFrom, isInline_layOut]
      by_cases inline : block.isInline
      · -- An inline block joins the paragraph, which is empty or has no blank pieces at its end.
        rw [if_pos inline, if_pos inline]
        rw [inline, Bool.and_true, Bool.and_eq_false_iff] at kept
        rcases kept.1 with empty | closed
        · have step := ih (front ++ back) (layOut .plain context block).inline [] kept.2
            (fun absurd => by cases absurd) (fun _ => rfl) laid.inline
            (List.forall_mem_append.mpr ⟨blankFront, blankBack⟩) areBlank_nil
          rw [List.append_nil] at step
          rwa [noLeft empty, List.append_nil]
        · have step := ih front (run ++ (layOut .plain context block).inline) [] kept.2
            (fun absurd => by cases absurd) (fun _ => rfl)
            (InlinePiece.areBare_append.mpr ⟨bare, laid.inline⟩) blankFront areBlank_nil
          rw [List.append_nil, ← List.append_assoc] at step
          rwa [noGap closed, List.append_nil]
      · -- Any other block ends the paragraph.
        rw [if_neg inline, if_neg inline]
        have later := ih [] [] [] kept.2 (fun _ => rfl) (fun _ => rfl)
          InlinePiece.areBare_nil areBlank_nil areBlank_nil
        rw [List.map_append, List.map_append, List.map_append, List.map_append,
          map_chars_visible_ofInline loose bare blankFront blankBack]
        exact congrArg _ later

/-- **A row of blocks reads the same without its blank text**, if none of that parts two inline
blocks. -/
theorem chars_contents_shownBlocks (span : Span) {blocks : List Block}
    (kept : partsWords blocks = false) :
    (contents spacing span (layOutAll .plain context blocks)).chars =
      (contents spacing span (layOutAll .plain context (shownBlocks blocks))).chars := by
  unfold contents groups
  rw [Fragment.chars_join, Fragment.chars_join]
  exact congrArg _ (map_chars_groupsFrom loose context [] [] [] kept (fun _ => rfl) (fun _ => rfl)
    InlinePiece.areBare_nil areBlank_nil areBlank_nil)

end Rows

end PromptMarkup
