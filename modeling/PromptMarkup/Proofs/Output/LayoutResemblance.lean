/-
**Documents at other ranges.**

What is written does not depend on where the source of it stands: documents that differ in ranges
only have the same messages.

* `Laid.Resembles`, `resembles_contents`: blocks laid out, and rows of them;
* `resembles_layOut`: blocks with all that is below them;
* `SpeakerRun.Resembles`, `resembles_speakerRuns`: the speakers of a document;
* `writeMessages_resembles`: the messages.
-/

import PromptMarkup.Proofs.Output.FragmentResemblance

namespace PromptMarkup

/-! ### Rows of blocks -/

/-- Blocks laid out that are the same up to ranges. -/
structure Laid.Resembles (one other : Laid) : Prop where
  isInline : other.isInline = one.isInline
  inline : RunsResemble one.inline other.inline
  fragment : one.fragment.Resembles other.fragment

/-- Rows of such blocks. -/
abbrev RowsResemble : List Laid → List Laid → Prop := List.Forall₂ Laid.Resembles

section Rows

variable {one other : Fragment} {ones others : List Laid} {span place : Span}

theorem resembles_visible (same : one.Resembles other) :
    List.Forall₂ Fragment.Resembles (visible one) (visible other) := by
  unfold visible
  rw [resembles_isBlank same]
  split
  · exact .nil
  · exact .cons same .nil

theorem resembles_groupsFrom (spacing : Spacing) {run again : List InlinePiece}
    (inline : RunsResemble run again) (same : RowsResemble ones others) :
    List.Forall₂ Fragment.Resembles (groupsFrom spacing run ones)
      (groupsFrom spacing again others) := by
  induction same generalizing run again with
  | nil => exact resembles_visible (resembles_ofInline spacing inline)
  | cons first _ ih =>
    unfold groupsFrom
    rw [first.isInline]
    split
    · exact ih (List.rel_append inline first.inline)
    · have paragraph := resembles_visible (resembles_ofInline spacing inline)
      exact List.rel_append (List.rel_append paragraph (resembles_visible first.fragment)) (ih .nil)

/-- **Blocks in a row.** -/
theorem resembles_contents (spacing : Spacing) (same : RowsResemble ones others) :
    Fragment.Resembles (contents spacing span ones) (contents spacing place others) :=
  resembles_join paragraphBreak (resembles_groupsFrom spacing .nil same)

theorem resembles_inline (same : RowsResemble ones others) :
    RunsResemble (ones.flatMap Laid.inline) (others.flatMap Laid.inline) :=
  List.rel_flatMap same fun _ _ here => here.inline

/-! ### Single kinds -/

theorem resembles_layParagraph (context : LayoutContext) (presentation : Presentation)
    (same : one.Resembles other) :
    Fragment.Resembles (layParagraph context presentation span one)
      (layParagraph context presentation place other) := by
  unfold layParagraph
  rw [resembles_isBlank same]
  split
  · exact resembles_wrap _ _ same
  · exact same

theorem resembles_layHeading (presentation : Presentation) (level : Nat)
    (same : one.Resembles other) :
    Fragment.Resembles (layHeading presentation span level one)
      (layHeading presentation place level other) := by
  unfold layHeading
  simp only
  split
  · exact resembles_wrap _ _ same
  · split
    · exact List.rel_append (resembles_synthetic _) same
    · exact same

theorem resembles_layCaption (separator : String) {caption again : Fragment}
    (above : caption.Resembles again) (same : one.Resembles other) :
    Fragment.Resembles (layCaption separator span caption one)
      (layCaption separator place again other) := by
  unfold layCaption
  rw [resembles_isBlank same]
  split
  · exact above
  · exact resembles_join separator (.cons above (.cons same .nil))

theorem resembles_layCaptioned (context : LayoutContext) (presentation : Presentation)
    (caption : String) (style : CaptionStyle) (ending : CaptionEnding) (inlineBody : Bool)
    (same : one.Resembles other) :
    Fragment.Resembles (layCaptioned context presentation span caption style ending inlineBody one)
      (layCaptioned context presentation place caption style ending inlineBody other) := by
  unfold layCaptioned
  split
  · exact same
  · exact resembles_layCaption _ (resembles_layHeading _ _ (resembles_synthetic caption)) same
  · exact resembles_layCaption _ (resembles_synthetic _) same

theorem resembles_layItems (style : ListStyle) (index : Nat) (same : RowsResemble ones others) :
    List.Forall₂ Fragment.Resembles (layItems style index ones) (layItems style index others) := by
  induction same generalizing index with
  | nil => exact .nil
  | cons first _ ih =>
    rw [layItems, layItems]
    exact .cons (List.rel_append (resembles_synthetic _) (resembles_indent _ first.fragment))
      (ih (index + 1))

theorem resembles_layCode (presentation : Presentation) (language : Option String)
    (same : one.Resembles other) :
    Fragment.Resembles (layCode presentation language span one)
      (layCode presentation language place other) := by
  have trimmed := resembles_trimBy isLineEnd Text.isBlank same
  unfold layCode
  simp only
  split
  · exact resembles_wrap _ _ trimmed
  · split
    · exact resembles_wrap _ _ trimmed
    · exact trimmed

theorem resembles_layData (context : LayoutContext) (presentation : Presentation) (value : Json) :
    Fragment.Resembles (layData context presentation span value)
      (layData context presentation place value) := by
  unfold layData
  simp only
  split
  · exact resembles_synthetic _
  · exact resembles_wrap _ _ (resembles_synthetic _)

theorem resembles_layAttachment (rendition : Rendition) (attachment : Attachment) (text : String) :
    Fragment.Resembles (layAttachment rendition attachment text span)
      (layAttachment rendition attachment text place) := by
  unfold layAttachment
  split
  · exact .cons ⟨rfl, rfl⟩ .nil
  · exact resembles_synthetic text

end Rows

/-! ### Blocks -/

mutual

/-- Blocks that are the same up to ranges have such blocks below them. -/
theorem Block.walk_resembles (one : Block) {other : Block} (same : one.Resembles other) :
    BlocksResemble one.walk other.walk :=
  match one with
  | ⟨_, _, _, _, children, _⟩ => by
    have whole := same
    cases same with
    | intro _ _ _ _ _ _ below =>
      rw [Block.walk, Block.walk]
      exact .cons whole (Block.walkAll_resembles children below)

theorem Block.walkAll_resembles (ones : List Block) {others : List Block}
    (same : BlocksResemble ones others) :
    BlocksResemble (Block.walkAll ones) (Block.walkAll others) :=
  match ones with
  | [] => by
    cases same
    exact .nil
  | block :: rest => by
    cases same with
    | cons first later =>
      rw [Block.walkAll, Block.walkAll]
      exact List.rel_append (Block.walk_resembles block first)
        (Block.walkAll_resembles rest later)

end

theorem Block.Resembles.piece? {one other : Block} (same : one.Resembles other) :
    Option.Rel Piece.Resembles one.piece? other.piece? := by
  unfold Block.piece?
  rw [same.kind]
  split
  · exact .some ⟨rfl, rfl⟩
  · exact .none

theorem resembles_verbatim {ones others : List Block} (same : BlocksResemble ones others) :
    Fragment.Resembles (verbatim ones) (verbatim others) := by
  unfold verbatim
  have walked := Block.walkAll_resembles ones same
  generalize Block.walkAll ones = blocks at walked ⊢
  generalize Block.walkAll others = again at walked ⊢
  induction walked with
  | nil => exact .nil
  | cons first _ ih =>
    have piece := first.piece?
    rw [List.filterMap_cons, List.filterMap_cons]
    generalize Block.piece? _ = one at piece
    generalize Block.piece? _ = other at piece
    cases piece with
    | none => exact ih
    | some here =>
      simp only [List.filter_cons, here.isVoid]
      split
      · exact .cons here ih
      · exact ih

section Forms

variable {one other : Block} (same : one.Resembles other) {ones others : List Laid}
  (inside : RowsResemble ones others)
include same inside

/-- A block as a part of a paragraph. -/
theorem resembles_inlineForm? :
    Option.Rel RunsResemble (inlineForm? one ones) (inlineForm? other others) := by
  unfold inlineForm?
  simp only [same.kind, same.spacing, same.presentation]
  split
  · exact .some (.cons ⟨⟨rfl, rfl⟩, rfl⟩ .nil)
  · exact .some (.cons ⟨⟨rfl, rfl⟩, rfl⟩ .nil)
  · exact .some (List.rel_append (List.rel_append (resembles_marks _ _ _) (resembles_inline inside))
      (resembles_marks _ _ _))
  · exact .some (List.rel_append (List.rel_append (resembles_marks _ _ _)
      (resembles_map _ (resembles_verbatim same.children))) (resembles_marks _ _ _))
  · exact .none

/-- **A block on its own.** -/
theorem resembles_blockForm (rendition : Rendition) (context : LayoutContext) :
    (blockForm rendition context one ones).Resembles
      (blockForm rendition context other others) := by
  have body : Fragment.Resembles (contents one.spacing one.span ones)
      (contents one.spacing other.span others) := resembles_contents one.spacing inside
  unfold blockForm
  simp only [same.kind, same.spacing, same.presentation]
  split
  · exact body
  · exact body
  · exact body
  · exact body
  · exact resembles_layParagraph _ _ body
  · exact resembles_layHeading _ _ (resembles_ofInline _ (resembles_inline inside))
  · rw [all_eq_of_forall₂ (fun _ _ laid => laid.isInline) inside]
    exact resembles_layCaptioned _ _ _ _ _ _ body
  · exact resembles_join _ (resembles_layItems _ 0 inside)
  · exact resembles_synthetic _
  · exact resembles_layCode _ _ (resembles_verbatim same.children)
  · exact resembles_layData _ _ _
  · exact resembles_layAttachment _ _ _
  · exact resembles_layAttachment _ _ _
  · split
    · rw [resembles_text body]
      exact resembles_layAttachment _ _ _
    · exact body
  all_goals
    have form := resembles_inlineForm? same inside
    generalize inlineForm? one ones = first at form
    generalize inlineForm? other others = second at form
    cases form with
    | none => exact resembles_ofInline _ .nil
    | some here => exact resembles_ofInline _ here

theorem resembles_assemble (rendition : Rendition) (context : LayoutContext) :
    (assemble rendition context one ones).Resembles (assemble rendition context other others) := by
  have fragment := resembles_blockForm same inside rendition context
  have form := resembles_inlineForm? same inside
  refine ⟨same.isInline, ?_, fragment⟩
  unfold assemble
  simp only
  generalize inlineForm? one ones = first at form
  generalize inlineForm? other others = second at form
  cases form with
  | none => exact resembles_map none fragment
  | some here => exact here

end Forms

mutual

/-- **A block laid out** does not depend on ranges. -/
theorem resembles_layOut (rendition : Rendition) (context : LayoutContext) (one : Block)
    {other : Block} (same : one.Resembles other) :
    (layOut rendition context one).Resembles (layOut rendition context other) :=
  match one with
  | ⟨_, _, _, _, children, _⟩ => by
    have whole := same
    cases same with
    | intro _ _ _ _ _ _ below =>
      rw [layOut, layOut]
      exact resembles_assemble whole (resembles_layOutAll _ _ children below) rendition context

theorem resembles_layOutAll (rendition : Rendition) (context : LayoutContext) (ones : List Block)
    {others : List Block} (same : BlocksResemble ones others) :
    RowsResemble (layOutAll rendition context ones) (layOutAll rendition context others) :=
  match ones with
  | [] => by
    cases same
    exact .nil
  | block :: rest => by
    cases same with
    | cons first later =>
      rw [layOutAll, layOutAll]
      exact .cons (resembles_layOut rendition context block first)
        (resembles_layOutAll rendition context rest later)

end

/-- **Some blocks as one document.** -/
theorem resembles_layBlocks (rendition : Rendition) (span place : Span) {ones others : List Block}
    (same : BlocksResemble ones others) :
    (layBlocks rendition ones span).Resembles (layBlocks rendition others place) := by
  have presentation : (others.head?.map Block.presentation) =
      (ones.head?.map Block.presentation) := by
    cases same with
    | nil => rfl
    | cons first _ => exact congrArg some first.presentation
  have spacing : (others.head?.map Block.spacing) = (ones.head?.map Block.spacing) := by
    cases same with
    | nil => rfl
    | cons first _ => exact congrArg some first.spacing
  unfold layBlocks
  simp only
  rw [presentation, spacing]
  exact resembles_trimBy _ _ (resembles_contents _ (resembles_layOutAll _ _ ones same))

/-! ### Speakers -/

theorem Block.Resembles.namesSpeaker {one other : Block} (same : one.Resembles other) :
    other.namesSpeaker = one.namesSpeaker :=
  any_eq_of_forall₂ (fun _ _ inner => congrArg Option.isSome inner.speaker)
    (Block.walk_resembles one same)

/-- Units of the same speaker that are the same up to ranges. -/
structure SpeakerUnit.Resembles (one other : SpeakerUnit) : Prop where
  speaker : other.speaker = one.speaker
  block : one.block.Resembles other.block

/-- Runs of the same speaker that are the same up to ranges. -/
structure SpeakerRun.Resembles (one other : SpeakerRun) : Prop where
  speaker : other.speaker = one.speaker
  blocks : BlocksResemble one.blocks other.blocks

mutual

theorem resembles_unitsOf (around : Speaker) (one : Block) {other : Block}
    (same : one.Resembles other) :
    List.Forall₂ SpeakerUnit.Resembles (unitsOf around one) (unitsOf around other) :=
  match one with
  | ⟨_, _, _, _, children, _⟩ => by
    have whole := same
    cases same with
    | intro _ _ _ _ _ _ below =>
      unfold unitsOf
      simp only [any_eq_of_forall₂ (fun _ _ inner => inner.namesSpeaker) below]
      split
      · exact .nil
      · split
        · exact .cons ⟨rfl, whole⟩ .nil
        · split
          · exact resembles_unitsOfAll around children below
          · exact .cons ⟨rfl, whole⟩ .nil

theorem resembles_unitsOfAll (around : Speaker) (ones : List Block) {others : List Block}
    (same : BlocksResemble ones others) :
    List.Forall₂ SpeakerUnit.Resembles (unitsOfAll around ones) (unitsOfAll around others) :=
  match ones with
  | [] => by
    cases same
    exact .nil
  | block :: rest => by
    cases same with
    | cons first later =>
      rw [unitsOfAll, unitsOfAll]
      exact List.rel_append (resembles_unitsOf around block first)
        (resembles_unitsOfAll around rest later)

end

section Documents

variable {one other : Block} (same : one.Resembles other)
include same

theorem Block.Resembles.rootSpeaker : rootSpeaker other = rootSpeaker one :=
  congrArg (Option.getD · Speaker.human) same.speaker

theorem resembles_units : List.Forall₂ SpeakerUnit.Resembles (units one) (units other) := by
  unfold units
  rw [same.rootSpeaker]
  exact resembles_unitsOfAll _ _ same.children

omit same in
theorem resembles_addUnit {unit again : SpeakerUnit} (here : unit.Resembles again)
    {ones others : List SpeakerRun} (same : List.Forall₂ SpeakerRun.Resembles ones others) :
    List.Forall₂ SpeakerRun.Resembles (addUnit unit ones) (addUnit again others) := by
  have alone : SpeakerRun.Resembles ⟨unit.speaker, [unit.block], unit.block.span⟩
      ⟨again.speaker, [again.block], again.block.span⟩ := ⟨here.speaker, .cons here.block .nil⟩
  cases same with
  | nil => exact .cons alone .nil
  | cons first later =>
    unfold addUnit
    simp only [first.speaker, here.speaker]
    split
    · exact .cons ⟨rfl, .cons here.block first.blocks⟩ later
    · exact .cons ⟨rfl, .cons here.block .nil⟩ (.cons first later)

omit same in
/-- The first speaker who is named at a unit. -/
theorem find?_named_resembles {ones others : List SpeakerUnit}
    (same : List.Forall₂ SpeakerUnit.Resembles ones others) :
    (others.find? fun unit => unit.block.speaker.isSome).map SpeakerUnit.speaker =
      (ones.find? fun unit => unit.block.speaker.isSome).map SpeakerUnit.speaker := by
  induction same with
  | nil => rfl
  | cons first _ ih =>
    rw [List.find?_cons, List.find?_cons, first.block.speaker]
    split
    · exact congrArg some first.speaker
    · exact ih

/-- **The speakers of a document** do not depend on ranges. -/
theorem resembles_speakerRuns (single : Bool) :
    List.Forall₂ SpeakerRun.Resembles (speakerRuns one single) (speakerRuns other single) := by
  have units := resembles_units same
  unfold speakerRuns
  split
  · refine .cons ⟨?_, ?_⟩ .nil
    · unfold singleRun
      simp only
      rw [find?_named_resembles units, same.rootSpeaker]
    · exact List.rel_map (fun _ _ unit => unit.block) units
  · generalize PromptMarkup.units one = ones at units ⊢
    generalize PromptMarkup.units other = others at units ⊢
    induction units with
    | nil => exact .nil
    | cons first _ ih => exact resembles_addUnit first ih

/-- **Messages do not depend on ranges.** -/
theorem writeMessages_resembles (single : Bool) :
    writeMessages other single = writeMessages one single := by
  have runs := resembles_speakerRuns same single
  unfold writeMessages
  generalize speakerRuns one single = ones at runs ⊢
  generalize speakerRuns other single = others at runs ⊢
  induction runs with
  | nil => rfl
  | @cons run again _ _ first _ ih =>
    have parts := resembles_splitParts
      (resembles_layBlocks .rich run.span again.span first.blocks)
    rw [List.map_cons, List.map_cons, ih, first.speaker, parts]

end Documents

end PromptMarkup
