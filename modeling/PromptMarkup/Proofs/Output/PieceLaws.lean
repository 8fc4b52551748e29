/-
**Properties of the pieces of a layout.**

A layout cuts pieces into parts, leaves some of them out and puts text of its own between them. A
property that parts of pieces inherit, and that texts and attachments of the layout have wherever
they stand, is a property of all pieces that are written if the texts of the document have it.

* `PieceLaw`: such a property, with the ranges that pieces may have;
* `PieceLaw.Covers`: all pieces of a fragment have it; `covers_cutBy`, `covers_trimBy`,
  `covers_indentFrom`, `covers_ofInline` and others: it outlives every change of a fragment;
* `PieceLaw.Admits`: a block whose own text has it;
* `covers_layDocument`: all pieces of a document have it.
-/

import Mathlib.Data.List.SplitBy
import PromptMarkup.Output.Writer

namespace PromptMarkup

open Text (byteLength byteLength_append)

/-! ### Laws -/

/-- A property of pieces at certain ranges that parts of pieces inherit, and that text without a
source has. If `attaches` holds, attachments have it, too. -/
structure PieceLaw (places : Span → Prop) where
  holds : Piece → Prop
  attaches : Prop
  place : ∀ {piece}, holds piece → places piece.span
  synthetic : ∀ {span} text, places span → holds (.synthetic text span)
  attached : ∀ {span} text attachment, attaches → places span →
    holds ⟨text, span, false, some attachment⟩
  slice : ∀ {piece} front {chars} back, holds piece →
    piece.text.toList = front ++ chars ++ back → holds (piece.slice (byteLength front) chars)

namespace PieceLaw

variable {places : Span → Prop} {law : PieceLaw places}

/-! ### Parts of pieces -/

/-- All pieces have a property. -/
def Covers (law : PieceLaw places) (fragment : Fragment) : Prop :=
  ∀ piece ∈ fragment, law.holds piece

variable {piece : Piece} {fragment : Fragment}

theorem covers_nil : law.Covers [] := List.forall_mem_nil _

theorem covers_cons {rest : Fragment} :
    law.Covers (piece :: rest) ↔ law.holds piece ∧ law.Covers rest := List.forall_mem_cons

theorem covers_append {first second : Fragment} :
    law.Covers (first ++ second) ↔ law.Covers first ∧ law.Covers second := List.forall_mem_append

/-- **Parts in a row.** -/
theorem covers_slicesFrom (holds : law.holds piece) {front : List Char}
    {texts : List (List Char)} (whole : piece.text.toList = front ++ texts.flatten) :
    law.Covers (piece.slicesFrom (byteLength front) texts) := by
  induction texts generalizing front with
  | nil => exact covers_nil
  | cons chars rest ih =>
    rw [List.flatten_cons, ← List.append_assoc] at whole
    refine covers_cons.mpr ⟨law.slice front rest.flatten holds whole, ?_⟩
    rw [← byteLength_append]
    exact ih whole

theorem covers_cutBy (together : Char → Char → Bool) (holds : law.holds piece) :
    law.Covers (piece.cutBy together) := by
  have whole : piece.text.toList = [] ++ (piece.text.toList.splitBy together).flatten := by
    rw [List.nil_append, List.flatten_splitBy]
  exact covers_slicesFrom holds whole

theorem holds_dropFront (drop : Char → Bool) (holds : law.holds piece) :
    law.holds (piece.dropFront drop) := by
  refine law.slice (piece.text.toList.takeWhile drop) [] holds ?_
  rw [List.append_nil, List.takeWhile_append_dropWhile]

theorem holds_dropBack (drop : Char → Bool) (holds : law.holds piece) :
    law.holds (piece.dropBack drop) := by
  refine law.slice [] (piece.text.toList.reverse.takeWhile drop).reverse holds ?_
  rw [List.nil_append, Text.trimEndBy, ← List.reverse_append, List.takeWhile_append_dropWhile,
    List.reverse_reverse]

/-! ### Fragments -/

variable {span : Span}

theorem covers_synthetic (text : String) (place : places span) :
    law.Covers (.synthetic text span) := by
  unfold Fragment.synthetic
  split
  · exact covers_nil
  · exact List.forall_mem_singleton.mpr (law.synthetic text place)

theorem covers_wrap (opening closing : String) (place : places span)
    (covers : law.Covers fragment) : law.Covers (fragment.wrap opening closing span) :=
  covers_append.mpr ⟨covers_append.mpr ⟨covers_synthetic opening place, covers⟩,
    covers_synthetic closing place⟩

/-- The pieces of joined fragments are theirs or the separator. -/
theorem mem_join {separator : String} {fragments : List Fragment}
    (member : piece ∈ Fragment.join separator span fragments) :
    piece ∈ Fragment.synthetic separator span ∨ ∃ fragment ∈ fragments, piece ∈ fragment := by
  unfold Fragment.join at member
  induction fragments with
  | nil => cases member
  | cons first rest ih =>
    cases rest with
    | nil =>
      refine .inr ⟨first, List.mem_cons_self, ?_⟩
      simpa using member
    | cons second more =>
      simp only [List.intersperse_cons_cons, List.flatten_cons, List.mem_append] at member ih
      rcases member with here | between | later
      · exact .inr ⟨first, List.mem_cons_self, here⟩
      · exact .inl between
      · rcases ih later with between | ⟨fragment, inside, found⟩
        · exact .inl between
        · exact .inr ⟨fragment, List.mem_cons_of_mem _ inside, found⟩

theorem covers_join (separator : String) (place : places span) {fragments : List Fragment}
    (covers : ∀ fragment ∈ fragments, law.Covers fragment) :
    law.Covers (Fragment.join separator span fragments) := by
  intro piece member
  rcases mem_join member with between | ⟨fragment, inside, found⟩
  · exact covers_synthetic separator place piece between
  · exact covers fragment inside piece found

theorem covers_trimFront (drop : Char → Bool) (covers : law.Covers fragment) :
    law.Covers (Fragment.trimFront drop fragment) := by
  induction fragment with
  | nil => exact covers
  | cons piece rest ih =>
    obtain ⟨here, later⟩ := covers_cons.mp covers
    unfold Fragment.trimFront
    split
    · exact covers
    · simp only
      split
      · exact ih later
      · exact covers_cons.mpr ⟨holds_dropFront drop here, later⟩

theorem covers_trimBack (drop : Char → Bool) (covers : law.Covers fragment) :
    law.Covers (Fragment.trimBack drop fragment) := by
  induction fragment with
  | nil => exact covers
  | cons piece rest ih =>
    obtain ⟨here, later⟩ := covers_cons.mp covers
    have trimmed := ih later
    unfold Fragment.trimBack
    split
    next next more found =>
      rw [found] at trimmed
      exact covers_cons.mpr ⟨here, trimmed⟩
    next =>
      split
      · exact List.forall_mem_singleton.mpr here
      · simp only
        split
        · exact covers_nil
        · exact List.forall_mem_singleton.mpr (holds_dropBack drop here)

/-- **Trimming.** -/
theorem covers_trimBy (front back : Char → Bool) (covers : law.Covers fragment) :
    law.Covers (fragment.trimBy front back) :=
  covers_trimBack back (covers_trimFront front covers)

theorem covers_indentLines (margin : String) (place : places span) (pending : Bool)
    {lines : List Piece} (covers : law.Covers lines) :
    law.Covers (Fragment.indentLines margin span pending lines).1 := by
  induction lines generalizing pending with
  | nil => exact covers
  | cons line rest ih =>
    obtain ⟨here, later⟩ := covers_cons.mp covers
    have more := ih (line.text.toList.getLast? = some '\n') later
    unfold Fragment.indentLines
    simp only
    split
    · exact covers_cons.mpr ⟨law.synthetic margin place, covers_cons.mpr ⟨here, more⟩⟩
    · exact covers_cons.mpr ⟨here, more⟩

/-- **Indentation.** -/
theorem covers_indentFrom (margin : String) (place : places span) (pending : Bool)
    (covers : law.Covers fragment) :
    law.Covers (Fragment.indentFrom margin span pending fragment) := by
  induction fragment generalizing pending with
  | nil => exact covers
  | cons piece rest ih =>
    obtain ⟨here, later⟩ := covers_cons.mp covers
    unfold Fragment.indentFrom
    split
    · exact covers_cons.mpr ⟨here, ih pending later⟩
    · exact covers_append.mpr
        ⟨covers_indentLines margin place pending (covers_cutBy _ here), ih _ later⟩

/-! ### Paragraphs -/

/-- All pieces of a paragraph have a property. -/
def CoversRun (law : PieceLaw places) (run : List InlinePiece) : Prop :=
  ∀ inline ∈ run, law.holds inline.piece

variable {run : List InlinePiece}

theorem coversRun_append {first second : List InlinePiece} :
    law.CoversRun (first ++ second) ↔ law.CoversRun first ∧ law.CoversRun second :=
  List.forall_mem_append

theorem coversRun_map (spacing : Option Spacing) (covers : law.Covers fragment) :
    law.CoversRun (fragment.map fun piece => ⟨piece, spacing⟩) := by
  intro inline member
  obtain ⟨piece, inside, rfl⟩ := List.mem_map.mp member
  exact covers piece inside

theorem coversRun_marks (text : String) (place : places span) :
    law.CoversRun (InlinePiece.marks text span) := by
  unfold InlinePiece.marks
  split
  · exact List.forall_mem_nil _
  · exact List.forall_mem_singleton.mpr (law.synthetic text place)

theorem covers_collapseRuns (afterBlank : Bool) {runs : List Piece} (covers : law.Covers runs) :
    law.Covers (collapseRuns afterBlank runs).1 := by
  induction runs generalizing afterBlank with
  | nil => exact covers
  | cons run rest ih =>
    obtain ⟨here, later⟩ := covers_cons.mp covers
    have more := ih (Text.isBlankText run.text) later
    unfold collapseRuns
    simp only
    split
    · exact covers_cons.mpr ⟨here, more⟩
    · split
      · exact more
      · exact covers_cons.mpr ⟨law.synthetic " " (law.place here), more⟩

theorem covers_normalizeFrom (afterBlank : Bool) (covers : law.CoversRun run) :
    law.Covers (normalizeFrom afterBlank run) := by
  induction run generalizing afterBlank with
  | nil => exact covers_nil
  | cons inline rest ih =>
    obtain ⟨piece, spacing⟩ := inline
    obtain ⟨here, later⟩ := List.forall_mem_cons.mp covers
    unfold normalizeFrom
    split
    · exact covers_append.mpr
        ⟨covers_collapseRuns afterBlank (covers_cutBy _ here), ih _ later⟩
    · split
      · exact ih _ later
      · exact covers_cons.mpr ⟨here, ih _ later⟩

/-- **A paragraph.** -/
theorem covers_ofInline (container : Spacing) (covers : law.CoversRun run) :
    law.Covers (.ofInline container run) := by
  have pieces := covers_normalizeFrom true covers
  unfold Fragment.ofInline
  simp only
  split
  · exact pieces
  · exact covers_trimBy _ _ pieces

/-! ### Rows of blocks -/

/-- A block laid out of which all pieces have a property. -/
structure CoversLaid (law : PieceLaw places) (laid : Laid) : Prop where
  place : places laid.span
  inline : law.CoversRun laid.inline
  fragment : law.Covers laid.fragment

variable {children : List Laid}

theorem covers_visible (covers : law.Covers fragment) :
    ∀ shown ∈ visible fragment, law.Covers shown := by
  unfold visible
  split
  · exact List.forall_mem_nil _
  · exact List.forall_mem_singleton.mpr covers

theorem covers_groupsFrom (spacing : Spacing) (runCovers : law.CoversRun run)
    (covers : ∀ laid ∈ children, law.CoversLaid laid) :
    ∀ shown ∈ groupsFrom spacing run children, law.Covers shown := by
  induction children generalizing run with
  | nil => exact covers_visible (covers_ofInline spacing runCovers)
  | cons laid rest ih =>
    obtain ⟨here, later⟩ := List.forall_mem_cons.mp covers
    unfold groupsFrom
    split
    · exact ih (coversRun_append.mpr ⟨runCovers, here.inline⟩) later
    · refine List.forall_mem_append.mpr ⟨List.forall_mem_append.mpr ⟨?_, ?_⟩, ?_⟩
      · exact covers_visible (covers_ofInline spacing runCovers)
      · exact covers_visible here.fragment
      · exact ih (List.forall_mem_nil _) later

theorem covers_contents (spacing : Spacing) (place : places span)
    (covers : ∀ laid ∈ children, law.CoversLaid laid) :
    law.Covers (contents spacing span children) :=
  covers_join _ place (covers_groupsFrom spacing (List.forall_mem_nil _) covers)

/-! ### Single kinds -/

section Kinds

variable {body caption : Fragment}

theorem covers_layParagraph (context : LayoutContext) (presentation : Presentation)
    (place : places span) (covers : law.Covers body) :
    law.Covers (layParagraph context presentation span body) := by
  unfold layParagraph
  split
  · exact covers_wrap _ _ place covers
  · exact covers

theorem covers_layHeading (presentation : Presentation) (place : places span) (level : Nat)
    (covers : law.Covers body) : law.Covers (layHeading presentation span level body) := by
  unfold layHeading
  simp only
  split
  · exact covers_wrap _ _ place covers
  · split
    · exact covers_append.mpr ⟨covers_synthetic _ place, covers⟩
    · exact covers

theorem covers_layCaption (separator : String) (place : places span)
    (captionCovers : law.Covers caption) (covers : law.Covers body) :
    law.Covers (layCaption separator span caption body) := by
  unfold layCaption
  split
  · exact captionCovers
  · refine covers_join _ place (List.forall_mem_cons.mpr ⟨captionCovers, ?_⟩)
    exact List.forall_mem_singleton.mpr covers

theorem covers_layCaptioned (context : LayoutContext) (presentation : Presentation)
    (place : places span) (caption : String) (style : CaptionStyle) (ending : CaptionEnding)
    (inlineBody : Bool) (covers : law.Covers body) :
    law.Covers (layCaptioned context presentation span caption style ending inlineBody body) := by
  unfold layCaptioned
  cases style with
  | hidden => exact covers
  | header =>
    exact covers_layCaption _ place
      (covers_layHeading _ place _ (covers_synthetic caption place)) covers
  | bold => exact covers_layCaption _ place (covers_synthetic _ place) covers
  | plain => exact covers_layCaption _ place (covers_synthetic _ place) covers

theorem covers_layItems (style : ListStyle) (index : Nat)
    (covers : ∀ laid ∈ children, law.CoversLaid laid) :
    ∀ fragment ∈ layItems style index children, law.Covers fragment := by
  induction children generalizing index with
  | nil => exact List.forall_mem_nil _
  | cons item rest ih =>
    obtain ⟨here, later⟩ := List.forall_mem_cons.mp covers
    refine List.forall_mem_cons.mpr ⟨covers_append.mpr ⟨?_, ?_⟩, ih (index + 1) later⟩
    · exact covers_synthetic _ here.place
    · exact covers_indentFrom _ here.place false here.fragment

theorem covers_layCode (presentation : Presentation) (language : Option String)
    (place : places span) (covers : law.Covers body) :
    law.Covers (layCode presentation language span body) := by
  have trimmed : law.Covers (body.trimBy isLineEnd Text.isBlank) := covers_trimBy _ _ covers
  unfold layCode
  simp only
  split
  · exact covers_wrap _ _ place trimmed
  · split
    · exact covers_wrap _ _ place trimmed
    · exact trimmed

theorem covers_layData (context : LayoutContext) (presentation : Presentation)
    (place : places span) (value : Json) :
    law.Covers (layData context presentation span value) := by
  unfold layData
  simp only
  split
  · exact covers_synthetic _ place
  · exact covers_wrap _ _ place (covers_synthetic _ place)

theorem covers_layAttachment {rendition : Rendition} (kept : rendition = .rich → law.attaches)
    (attachment : Attachment) (text : String) (place : places span) :
    law.Covers (layAttachment rendition attachment text span) := by
  cases rendition with
  | plain => exact covers_synthetic text place
  | rich => exact List.forall_mem_singleton.mpr (law.attached text attachment (kept rfl) place)

end Kinds

/-! ### Blocks -/

/-- The range of a block and its own text, if it has one, are as they should be. -/
structure Admits (law : PieceLaw places) (block : Block) : Prop where
  place : places block.span
  text : ∀ piece, block.piece? = some piece → law.holds piece

variable {block : Block}

theorem covers_verbatim {blocks : List Block}
    (admits : ∀ inner ∈ Block.walkAll blocks, law.Admits inner) : law.Covers (verbatim blocks) := by
  intro piece member
  obtain ⟨inner, inside, found⟩ := List.mem_filterMap.mp (List.mem_of_mem_filter member)
  exact (admits inner inside).text piece found

theorem coversRun_inlines (covers : ∀ laid ∈ children, law.CoversLaid laid) :
    law.CoversRun (children.flatMap Laid.inline) := by
  intro inline member
  obtain ⟨laid, inside, found⟩ := List.mem_flatMap.mp member
  exact (covers laid inside).inline inline found

/-- **A block as a part of a paragraph.** -/
theorem coversRun_inlineForm (admits : law.Admits block)
    (below : ∀ inner ∈ Block.walkAll block.children, law.Admits inner)
    (covers : ∀ laid ∈ children, law.CoversLaid laid)
    (form : inlineForm? block children = some run) : law.CoversRun run := by
  have marked : ∀ (marks : String × String) {inner : List InlinePiece}, law.CoversRun inner →
      law.CoversRun (InlinePiece.marks marks.1 block.span ++ inner ++
        InlinePiece.marks marks.2 block.span) := fun marks _ inner =>
    coversRun_append.mpr ⟨coversRun_append.mpr
      ⟨coversRun_marks marks.1 admits.place, inner⟩, coversRun_marks marks.2 admits.place⟩
  unfold inlineForm? at form
  simp only at form
  split at form
  next value exact kind =>
    obtain rfl := Option.some.inj form
    refine List.forall_mem_singleton.mpr (admits.text _ ?_)
    unfold Block.piece?
    rw [kind]
  next =>
    obtain rfl := Option.some.inj form
    exact List.forall_mem_singleton.mpr (law.synthetic "\n" admits.place)
  next =>
    obtain rfl := Option.some.inj form
    exact marked _ (coversRun_inlines covers)
  next =>
    obtain rfl := Option.some.inj form
    exact marked _ (coversRun_map _ (covers_verbatim below))
  next => cases form

/-- **A block on its own.** -/
theorem covers_blockForm {rendition : Rendition} (kept : rendition = .rich → law.attaches)
    (context : LayoutContext) (admits : law.Admits block)
    (below : ∀ inner ∈ Block.walkAll block.children, law.Admits inner)
    (covers : ∀ laid ∈ children, law.CoversLaid laid) :
    law.Covers (blockForm rendition context block children) := by
  have place := admits.place
  have body := covers_contents block.spacing place covers
  have inline : law.Covers (.ofInline block.spacing ((inlineForm? block children).getD [])) := by
    refine covers_ofInline block.spacing ?_
    cases form : inlineForm? block children with
    | none => exact List.forall_mem_nil _
    | some run => exact coversRun_inlineForm admits below covers form
  unfold blockForm
  simp only
  split
  · exact body
  · exact body
  · exact body
  · exact body
  · exact covers_layParagraph context _ place body
  · exact covers_layHeading _ place _ (covers_ofInline _ (coversRun_inlines covers))
  · exact covers_layCaptioned context _ place _ _ _ _ body
  · exact covers_join _ place (covers_layItems _ 0 covers)
  · exact covers_synthetic _ place
  · exact covers_layCode _ _ place (covers_verbatim below)
  · exact covers_layData context _ place _
  · exact covers_layAttachment kept _ _ place
  · exact covers_layAttachment kept _ _ place
  · split
    · exact covers_layAttachment kept _ _ place
    · exact body
  · exact inline
  · exact inline
  · exact inline

theorem coversLaid_assemble {rendition : Rendition} (kept : rendition = .rich → law.attaches)
    (context : LayoutContext) (admits : law.Admits block)
    (below : ∀ inner ∈ Block.walkAll block.children, law.Admits inner)
    (covers : ∀ laid ∈ children, law.CoversLaid laid) :
    law.CoversLaid (assemble rendition context block children) := by
  have fragment := covers_blockForm kept context admits below covers
  refine ⟨admits.place, ?_, fragment⟩
  unfold assemble
  simp only
  cases form : inlineForm? block children with
  | some run => exact coversRun_inlineForm admits below covers form
  | none => exact coversRun_map none fragment

/-- Attachments are kept in a block where they are kept around it, if at all. -/
theorem rich_of_childRendition {kind : BlockKind} {rendition : Rendition}
    (rich : childRendition kind rendition = .rich) : rendition = .rich := by
  unfold childRendition at rich
  split at rich
  · cases rich
  · exact rich

mutual

/-- **All pieces of a block have a property** that its texts have. -/
theorem coversLaid_layOut {rendition : Rendition} (kept : rendition = .rich → law.attaches)
    (context : LayoutContext) (block : Block) (admits : ∀ inner ∈ block.walk, law.Admits inner) :
    law.CoversLaid (layOut rendition context block) := by
  obtain ⟨kind, presentation, speaker, spacing, children, span⟩ := block
  obtain ⟨here, below⟩ := List.forall_mem_cons.mp admits
  unfold layOut
  refine coversLaid_assemble kept context here below ?_
  exact coversLaid_layOutAll (fun rich => kept (rich_of_childRendition rich)) _ children below

theorem coversLaid_layOutAll {rendition : Rendition} (kept : rendition = .rich → law.attaches)
    (context : LayoutContext) (blocks : List Block)
    (admits : ∀ inner ∈ Block.walkAll blocks, law.Admits inner) :
    ∀ laid ∈ layOutAll rendition context blocks, law.CoversLaid laid := by
  cases blocks with
  | nil => exact List.forall_mem_nil _
  | cons block rest =>
    obtain ⟨here, later⟩ := List.forall_mem_append.mp admits
    unfold layOutAll
    exact List.forall_mem_cons.mpr ⟨coversLaid_layOut kept context block here,
      coversLaid_layOutAll kept context rest later⟩

end

/-- **All pieces of a document have a property** that its texts have. -/
theorem covers_layDocument {rendition : Rendition} (kept : rendition = .rich → law.attaches)
    (document : Block) (admits : ∀ inner ∈ document.walk, law.Admits inner) :
    law.Covers (layDocument rendition document) :=
  covers_trimBy _ _ (coversLaid_layOut kept _ document admits).fragment

end PieceLaw

end PromptMarkup
