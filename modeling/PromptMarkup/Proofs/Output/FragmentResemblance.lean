/-
**Blocks and fragments at other ranges.**

What becomes of a component depends neither on its tag nor on ranges, but for the ranges of the
blocks that it leaves. Trimming, indenting and joining look at texts and attachments alone, so
fragments with the same texts and attachments at other ranges become such fragments again.

* `Block.Resembles`: blocks that are the same up to ranges;
* `ComponentNode.blocks_renames`: the blocks of components that are the same up to tags and ranges;
* `presentDocument_renames`: the blocks of whole documents;
* `Piece.Resembles`, `Fragment.Resembles`: pieces and fragments that are the same up to ranges;
* `resembles_trimBy`, `resembles_indent`, `resembles_join`: changes of fragments;
* `InlinePiece.Resembles`, `resembles_ofInline`: paragraphs;
* `resembles_text`, `resembles_splitParts`: they have the same text and the same parts.
-/

import PromptMarkup.Block.Presenting
import PromptMarkup.Output.Writer
import PromptMarkup.Proofs.Component.RenamedTree

namespace PromptMarkup

section Blocks

open Markup (Relabel)

/-! ### Lists -/

section Lists

variable {α β : Type} {related : α → β → Prop} {holds : α → Bool} {also : β → Bool}
  (each : ∀ one other, related one other → also other = holds one)
include each

/-- What holds of related members alike holds of all of them alike. -/
theorem all_eq_of_forall₂ {ones : List α} {others : List β}
    (same : List.Forall₂ related ones others) : others.all also = ones.all holds := by
  induction same with
  | nil => rfl
  | cons first _ ih => rw [List.all_cons, List.all_cons, each _ _ first, ih]

/-- What holds of related members alike holds of some of them alike. -/
theorem any_eq_of_forall₂ {ones : List α} {others : List β}
    (same : List.Forall₂ related ones others) : others.any also = ones.any holds := by
  induction same with
  | nil => rfl
  | cons first _ ih => rw [List.any_cons, List.any_cons, each _ _ first, ih]

end Lists

/-! ### Blocks -/

/-- Blocks that are the same up to ranges. -/
inductive Block.Resembles : Block → Block → Prop
  | intro (kind : BlockKind) (presentation : Presentation) (speaker : Option Speaker)
      (spacing : Spacing) {children others : List Block} (span place : Span) :
      List.Forall₂ Block.Resembles children others →
      Block.Resembles ⟨kind, presentation, speaker, spacing, children, span⟩
        ⟨kind, presentation, speaker, spacing, others, place⟩

/-- Some blocks that are the same up to ranges. -/
abbrev BlocksResemble : List Block → List Block → Prop := List.Forall₂ Block.Resembles

namespace Block.Resembles

variable {one other : Block} (same : one.Resembles other)
include same

theorem kind : other.kind = one.kind := by
  cases same
  rfl

theorem presentation : other.presentation = one.presentation := by
  cases same
  rfl

theorem speaker : other.speaker = one.speaker := by
  cases same
  rfl

theorem spacing : other.spacing = one.spacing := by
  cases same
  rfl

theorem children : BlocksResemble one.children other.children := by
  cases same with
  | intro _ _ _ _ _ _ below => exact below

theorem isInline : other.isInline = one.isInline := congrArg BlockKind.isInline same.kind

theorem isBlankText : other.isBlankText = one.isBlankText :=
  congrArg BlockKind.isBlankText same.kind

/-- A block stays the same in an item of its own. -/
theorem asItem (inherited : Inherited) (span place : Span) :
    (one.asItem inherited span).Resembles (other.asItem inherited place) := by
  unfold Block.asItem
  rw [same.kind]
  split
  · exact same
  · exact .intro _ _ _ _ _ _ (.cons same .nil)

end Block.Resembles

theorem listItems_resembles (inherited : Inherited) (span place : Span) {ones others : List Block}
    (same : BlocksResemble ones others) :
    BlocksResemble (listItems inherited span ones) (listItems inherited place others) := by
  unfold listItems
  induction same with
  | nil => exact .nil
  | cons first _ ih =>
    rw [List.filter_cons, List.filter_cons, first.isBlankText]
    split
    · exact .cons (first.asItem inherited span place) ih
    · exact ih

/-! ### Components -/

section Components

variable {relabel : Relabel}

/-- **What a component is** depends on its text and on what flows in it alone. -/
theorem ComponentNode.Renames.blockKind {one other : ComponentNode}
    (same : one.Renames relabel other) (inherited : Inherited) {ones others : List Block}
    (inner : BlocksResemble ones others) :
    other.blockKind inherited others = one.blockKind inherited ones := by
  cases same with
  | @intro tag word component props children later span place _ below =>
    have text : ComponentNode.textContent ⟨component, word, props, later, place⟩ =
        ComponentNode.textContent ⟨component, tag, props, children, span⟩ :=
      textOfChildren_renames children below
    have code : ComponentNode.codeKind ⟨component, word, props, later, place⟩ =
        ComponentNode.codeKind ⟨component, tag, props, children, span⟩ := by
      unfold ComponentNode.codeKind
      rw [text]
      rfl
    have generic : ComponentNode.genericKind others = ComponentNode.genericKind ones := by
      unfold ComponentNode.genericKind
      rw [all_eq_of_forall₂ (fun _ _ same => same.isInline) inner]
    unfold ComponentNode.blockKind
    rw [code, generic]
    rfl

mutual

/-- **The blocks of a component** are the same under another name. -/
theorem ComponentNode.blocks_renames (around : Inherited) (one : ComponentNode)
    {other : ComponentNode} (same : one.Renames relabel other) :
    BlocksResemble (one.blocks around) (other.blocks around) :=
  match one with
  | ⟨component, tag, props, children, span⟩ => by
    have whole := same
    cases same with
    | @intro _ word _ _ _ others _ place _ below =>
      have handed : ComponentNode.inherited ⟨component, word, props, others, place⟩ around =
          ComponentNode.inherited ⟨component, tag, props, children, span⟩ around := rfl
      have speaker : ComponentNode.speaker? ⟨component, word, props, others, place⟩ =
          ComponentNode.speaker? ⟨component, tag, props, children, span⟩ := rfl
      rw [ComponentNode.blocks, ComponentNode.blocks]
      simp only [handed, speaker]
      split
      · exact .nil
      · generalize ComponentNode.inherited _ around = inherited
        have inner : BlocksResemble
            (if component.kind.showsChildren then childBlocks inherited children else [])
            (if component.kind.showsChildren then childBlocks inherited others else []) := by
          split
          · exact childBlocks_renames inherited children below
          · exact .nil
        rw [whole.blockKind inherited inner]
        refine .cons (.intro _ _ _ _ _ _ ?_) .nil
        unfold arrangeChildren
        simp only
        split
        · exact listItems_resembles inherited _ _ inner
        · exact inner

/-- The blocks of a child are the same under another name. -/
theorem ComponentChild.blocks_renames (around : Inherited) (one : ComponentChild)
    {other : ComponentChild} (same : one.Renames relabel other) :
    BlocksResemble (one.blocks around) (other.blocks around) :=
  match one with
  | .node node => by
    cases same with
    | node inside =>
      rw [ComponentChild.blocks, ComponentChild.blocks]
      exact ComponentNode.blocks_renames around node inside
  | .text _ => by
    cases same
    exact .cons (.intro _ _ _ _ _ _ .nil) .nil

theorem childBlocks_renames (around : Inherited) (ones : List ComponentChild)
    {others : List ComponentChild} (same : ChildrenRename relabel ones others) :
    BlocksResemble (childBlocks around ones) (childBlocks around others) :=
  match ones with
  | [] => by
    cases same
    exact .nil
  | child :: rest => by
    cases same with
    | cons first later =>
      rw [childBlocks, childBlocks]
      exact List.rel_append (ComponentChild.blocks_renames around child first)
        (childBlocks_renames around rest later)

end

/-- **The block of a document** is the same under another name. -/
theorem presentDocument_renames {one other : ComponentNode} (same : one.Renames relabel other) :
    (presentDocument one).Resembles (presentDocument other) := by
  have blocks := ComponentNode.blocks_renames .standard one same
  unfold presentDocument
  simp only
  generalize one.blocks .standard = ones at blocks
  generalize other.blocks .standard = others at blocks
  cases blocks with
  | nil => exact .intro _ _ _ _ _ _ .nil
  | cons first later =>
    cases later with
    | nil =>
      simp only [first.kind]
      split
      · exact first
      · exact .intro _ _ _ _ _ _ (.cons first .nil)
    | cons second rest => exact .intro _ _ _ _ _ _ (.cons first (.cons second rest))

end Components

end Blocks

/-! ### Pieces -/

/-- Pieces with the same text and the same attachment. -/
structure Piece.Resembles (one other : Piece) : Prop where
  text : other.text = one.text
  attachment : other.attachment = one.attachment

/-- Fragments of such pieces. -/
abbrev Fragment.Resembles (one other : Fragment) : Prop := List.Forall₂ Piece.Resembles one other

namespace Piece

theorem resembles_synthetic (text : String) (span place : Span) :
    (synthetic text span).Resembles (synthetic text place) := ⟨rfl, rfl⟩

variable {one other : Piece} (same : one.Resembles other)
include same

theorem Resembles.isVoid : other.isVoid = one.isVoid := by
  unfold Piece.isVoid
  rw [same.text, same.attachment]

theorem Resembles.isBlank : other.isBlank = one.isBlank := by
  unfold Piece.isBlank
  rw [same.text, same.attachment]

omit same in
theorem resembles_slicesFrom (one other : Piece) (offset start : Nat) (texts : List (List Char)) :
    Fragment.Resembles (one.slicesFrom offset texts) (other.slicesFrom start texts) := by
  induction texts generalizing offset start with
  | nil => exact .nil
  | cons chars rest ih => exact .cons ⟨rfl, rfl⟩ (ih _ _)

/-- Pieces with the same text are cut at the same places. -/
theorem Resembles.cutBy (together : Char → Char → Bool) :
    Fragment.Resembles (one.cutBy together) (other.cutBy together) := by
  unfold Piece.cutBy
  rw [same.text]
  exact resembles_slicesFrom one other 0 0 _

theorem Resembles.dropFront (drop : Char → Bool) :
    (one.dropFront drop).Resembles (other.dropFront drop) := by
  unfold Piece.dropFront
  rw [same.text]
  exact ⟨rfl, rfl⟩

theorem Resembles.dropBack (drop : Char → Bool) :
    (one.dropBack drop).Resembles (other.dropBack drop) := by
  unfold Piece.dropBack
  rw [same.text]
  exact ⟨rfl, rfl⟩

end Piece

/-! ### Fragments -/

section Fragments

variable {one other : Fragment} {span place : Span}

theorem resembles_synthetic (text : String) :
    Fragment.Resembles (.synthetic text span) (.synthetic text place) := by
  unfold Fragment.synthetic
  split
  · exact .nil
  · exact .cons (Piece.resembles_synthetic text span place) .nil

/-- **The text of a fragment** is the same at other ranges. -/
theorem resembles_text (same : one.Resembles other) : other.text = one.text := by
  unfold Fragment.text
  refine congrArg String.join ?_
  induction same with
  | nil => rfl
  | cons first _ ih => rw [List.map_cons, List.map_cons, first.text, ih]

theorem resembles_isBlank (same : one.Resembles other) : other.isBlank = one.isBlank :=
  all_eq_of_forall₂ (fun _ _ here => here.isBlank) same

theorem resembles_wrap (opening closing : String) (same : one.Resembles other) :
    Fragment.Resembles (one.wrap opening closing span) (other.wrap opening closing place) :=
  List.rel_append (List.rel_append (resembles_synthetic opening) same) (resembles_synthetic closing)

theorem resembles_join (separator : String) {ones others : List Fragment}
    (same : List.Forall₂ Fragment.Resembles ones others) :
    Fragment.Resembles (.join separator span ones) (.join separator place others) := by
  unfold Fragment.join
  refine List.rel_flatten ?_
  induction same with
  | nil => exact .nil
  | cons first later ih =>
    cases later with
    | nil => exact .cons first .nil
    | cons second rest =>
      rw [List.intersperse_cons_cons, List.intersperse_cons_cons]
      exact .cons first (.cons (resembles_synthetic separator) ih)

/-! ### Trimming -/

theorem resembles_trimFront (drop : Char → Bool) (same : one.Resembles other) :
    Fragment.Resembles (one.trimFront drop) (other.trimFront drop) := by
  induction same with
  | nil => exact .nil
  | cons first later ih =>
    have kept := first.dropFront drop
    unfold Fragment.trimFront
    simp only [first.attachment, kept.text]
    split
    · exact .cons first later
    · split
      · exact ih
      · exact .cons kept later

theorem resembles_trimBack (drop : Char → Bool) (same : one.Resembles other) :
    Fragment.Resembles (one.trimBack drop) (other.trimBack drop) := by
  induction same with
  | nil => exact .nil
  | @cons piece again ones others first _ ih =>
    have kept := first.dropBack drop
    unfold Fragment.trimBack
    generalize Fragment.trimBack drop ones = trimmed at ih
    generalize Fragment.trimBack drop others = cut at ih
    cases ih with
    | cons second rest => exact .cons first (.cons second rest)
    | nil =>
      simp only [first.attachment, kept.text]
      split
      · exact .cons first .nil
      · split
        · exact .nil
        · exact .cons kept .nil

/-- **Trimming.** -/
theorem resembles_trimBy (front back : Char → Bool) (same : one.Resembles other) :
    Fragment.Resembles (one.trimBy front back) (other.trimBy front back) :=
  resembles_trimBack back (resembles_trimFront front same)

/-! ### Indentation -/

theorem resembles_indentLines (margin : String) (pending : Bool) (same : one.Resembles other) :
    Fragment.Resembles (Fragment.indentLines margin span pending one).1
        (Fragment.indentLines margin place pending other).1 ∧
      (Fragment.indentLines margin place pending other).2 =
        (Fragment.indentLines margin span pending one).2 := by
  induction same generalizing pending with
  | nil => exact ⟨.nil, rfl⟩
  | @cons line _ _ _ first _ ih =>
    obtain ⟨more, last⟩ := ih (line.text.toList.getLast? = some '\n')
    unfold Fragment.indentLines
    simp only [first.text]
    split
    · exact ⟨.cons (Piece.resembles_synthetic margin span place) (.cons first more), last⟩
    · exact ⟨.cons first more, last⟩

theorem resembles_indentFrom (margin : String) (pending : Bool) (same : one.Resembles other) :
    Fragment.Resembles (one.indentFrom margin span pending)
      (other.indentFrom margin place pending) := by
  induction same generalizing pending with
  | nil => exact .nil
  | @cons piece again _ _ first _ ih =>
    have lines : Fragment.Resembles piece.lines again.lines := first.cutBy _
    obtain ⟨indented, last⟩ := resembles_indentLines margin pending lines
    unfold Fragment.indentFrom
    simp only
    rw [first.attachment, last]
    split
    · exact .cons first (ih pending)
    · exact List.rel_append indented (ih _)

/-- **Indentation.** -/
theorem resembles_indent (margin : String) (same : one.Resembles other) :
    Fragment.Resembles (one.indent margin span) (other.indent margin place) :=
  resembles_indentFrom margin false same

/-! ### Parts -/

/-- **The parts of a fragment**: its attachments with the text between them. -/
theorem resembles_splitParts (same : one.Resembles other) : splitParts other = splitParts one := by
  unfold splitParts
  generalize false = behind
  generalize ([] : List Char) = chars
  induction same generalizing behind chars with
  | nil => rfl
  | cons first _ ih =>
    unfold splitPartsFrom
    rw [first.attachment, first.text]
    split
    · rw [ih]
    · rw [ih]

end Fragments

/-! ### Paragraphs -/

/-- Pieces of paragraphs that are the same up to ranges. -/
structure InlinePiece.Resembles (one other : InlinePiece) : Prop where
  piece : one.piece.Resembles other.piece
  spacing : other.spacing = one.spacing

/-- Rows of such pieces. -/
abbrev RunsResemble : List InlinePiece → List InlinePiece → Prop :=
  List.Forall₂ InlinePiece.Resembles

theorem resembles_map {one other : Fragment} (spacing : Option Spacing)
    (same : one.Resembles other) :
    RunsResemble (one.map fun piece => ⟨piece, spacing⟩)
      (other.map fun piece => ⟨piece, spacing⟩) :=
  List.rel_map (fun _ _ here => ⟨here, rfl⟩) same

theorem resembles_marks (text : String) (span place : Span) :
    RunsResemble (InlinePiece.marks text span) (InlinePiece.marks text place) := by
  unfold InlinePiece.marks
  split
  · exact .nil
  · exact .cons ⟨Piece.resembles_synthetic text span place, rfl⟩ .nil

theorem resembles_collapseRuns (afterBlank : Bool) {one other : Fragment}
    (same : one.Resembles other) :
    Fragment.Resembles (collapseRuns afterBlank one).1 (collapseRuns afterBlank other).1 ∧
      (collapseRuns afterBlank other).2 = (collapseRuns afterBlank one).2 := by
  induction same generalizing afterBlank with
  | nil => exact ⟨.nil, rfl⟩
  | @cons run _ _ _ first _ ih =>
    obtain ⟨more, last⟩ := ih (Text.isBlankText run.text)
    unfold collapseRuns
    simp only [first.text]
    split
    · exact ⟨.cons first more, last⟩
    · split
      · exact ⟨more, last⟩
      · exact ⟨.cons (Piece.resembles_synthetic " " _ _) more, last⟩

theorem resembles_normalizeFrom (afterBlank : Bool) {ones others : List InlinePiece}
    (same : RunsResemble ones others) :
    Fragment.Resembles (normalizeFrom afterBlank ones) (normalizeFrom afterBlank others) := by
  induction same generalizing afterBlank with
  | nil => exact .nil
  | @cons one other _ _ first _ ih =>
    obtain ⟨piece, spacing⟩ := one
    obtain ⟨again, _⟩ := other
    obtain ⟨first, rfl⟩ := first
    have text : again.text = piece.text := first.text
    have runs : Fragment.Resembles piece.runs again.runs := first.cutBy _
    obtain ⟨pieces, last⟩ := resembles_collapseRuns afterBlank runs
    unfold normalizeFrom
    simp only
    rw [first.isVoid, text, last]
    split
    · exact List.rel_append pieces (ih _)
    · split
      · exact ih _
      · exact .cons first (ih _)

/-- **A paragraph.** -/
theorem resembles_ofInline (container : Spacing) {ones others : List InlinePiece}
    (same : RunsResemble ones others) :
    Fragment.Resembles (.ofInline container ones) (.ofInline container others) := by
  have pieces := resembles_normalizeFrom true same
  unfold Fragment.ofInline
  simp only
  split
  · exact pieces
  · exact resembles_trimBy _ _ pieces

end PromptMarkup
