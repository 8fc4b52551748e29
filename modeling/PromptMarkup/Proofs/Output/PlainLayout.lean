/-
**Layouts as texts.**

No change that a layout makes to a fragment loses an attachment or makes one up, and an attachment
comes from a block of its own kind only. There are none in plain text, and a document without such
blocks is laid out in the same way in either rendition.

* `Fragment.attachments`: the attachments of a fragment in order;
* `Fragment.attachments_trimBy`, `Fragment.attachments_indent`, `Fragment.attachments_ofInline`:
  they outlive every change;
* `isBare_layOutAll`: blocks in plain text have no attachments;
* `Block.carriers`: the blocks that become attachments, in order;
* `Block.hasAttachments`: something in a block is of such a kind;
* `layOut_eq_plain`: without such blocks both renditions are the same.
-/

import PromptMarkup.Proofs.Output.FragmentText

namespace PromptMarkup

namespace Fragment

/-! ### Fragments -/

/-- The attachments of a fragment. -/
def attachments (fragment : Fragment) : List Attachment := fragment.filterMap Piece.attachment

theorem attachments_cons (piece : Piece) (rest : Fragment) :
    attachments (piece :: rest) = piece.attachment.toList ++ attachments rest := by
  unfold attachments
  cases found : piece.attachment with
  | none => rw [List.filterMap_cons_none found]; rfl
  | some attachment => rw [List.filterMap_cons_some found]; rfl

@[simp] theorem attachments_append (first second : Fragment) :
    attachments (first ++ second) = attachments first ++ attachments second :=
  List.filterMap_append

theorem isBare_iff {fragment : Fragment} : fragment.IsBare ↔ fragment.attachments = [] := by
  unfold attachments IsBare
  rw [List.filterMap_eq_nil_iff]

@[simp] theorem attachments_synthetic (text : String) (span : Span) :
    (synthetic text span).attachments = [] := by
  have covers : bareness.Covers (synthetic text span) := PieceLaw.covers_synthetic text trivial
  exact isBare_iff.mp covers

@[simp] theorem attachments_wrap (opening closing : String) (span : Span) (fragment : Fragment) :
    (wrap opening closing span fragment).attachments = fragment.attachments := by
  unfold wrap
  simp

/-- A blank fragment has no attachments. -/
theorem attachments_of_isBlank {fragment : Fragment} (blank : fragment.isBlank) :
    fragment.attachments = [] := by
  refine isBare_iff.mp fun piece member => ?_
  have here := List.all_eq_true.mp blank piece member
  unfold Piece.isBlank at here
  rw [Bool.and_eq_true] at here
  exact Option.isNone_iff_eq_none.mp here.1

/-! ### Trimming -/

theorem attachments_trimFront (drop : Char → Bool) (fragment : Fragment) :
    (trimFront drop fragment).attachments = fragment.attachments := by
  induction fragment with
  | nil => rfl
  | cons piece rest ih =>
    unfold trimFront
    by_cases attached : piece.attachment.isSome
    · rw [if_pos attached]
    · have none := Option.not_isSome_iff_eq_none.mp attached
      rw [if_neg attached, attachments_cons piece, none]
      simp only
      split
      · exact ih
      · exact attachments_cons _ rest

theorem attachments_trimBack (drop : Char → Bool) (fragment : Fragment) :
    (trimBack drop fragment).attachments = fragment.attachments := by
  induction fragment with
  | nil => rfl
  | cons piece rest ih =>
    rw [trimBack, attachments_cons piece, ← ih]
    split
    next next more found => rw [found, ← attachments_cons]
    next found =>
      rw [found]
      by_cases attached : piece.attachment.isSome
      · rw [if_pos attached, attachments_cons]
      · rw [if_neg attached, Option.not_isSome_iff_eq_none.mp attached]
        simp only
        split <;> rfl

/-- **Trimming keeps the attachments.** -/
@[simp] theorem attachments_trimBy (front back : Char → Bool) (fragment : Fragment) :
    (trimBy front back fragment).attachments = fragment.attachments := by
  unfold trimBy
  rw [attachments_trimBack, attachments_trimFront]

/-! ### Lines and runs -/

theorem attachments_indentFrom (margin : String) (span : Span) (pending : Bool)
    (fragment : Fragment) :
    (indentFrom margin span pending fragment).attachments = fragment.attachments := by
  induction fragment generalizing pending with
  | nil => rfl
  | cons piece rest ih =>
    unfold indentFrom
    by_cases attached : piece.attachment.isSome
    · rw [if_pos attached, attachments_cons, attachments_cons, ih]
    · have none := Option.not_isSome_iff_eq_none.mp attached
      have lines : bareness.Covers piece.lines := PieceLaw.covers_cutBy _ none
      have indented : bareness.Covers (indentLines margin span pending piece.lines).1 :=
        PieceLaw.covers_indentLines margin trivial pending lines
      rw [if_neg attached, attachments_cons, none]
      simp only
      rw [attachments_append, ih]
      exact congrArg (· ++ attachments rest) (isBare_iff.mp indented)

/-- **Indentation keeps the attachments.** -/
@[simp] theorem attachments_indent (margin : String) (span : Span) (fragment : Fragment) :
    (indent margin span fragment).attachments = fragment.attachments :=
  attachments_indentFrom margin span false fragment

end Fragment

/-! ### Paragraphs -/

open Fragment (IsBare bareness isBare_iff)

namespace InlinePiece

/-- The attachments of some pieces of a paragraph. -/
def attachments (run : List InlinePiece) : List Attachment :=
  Fragment.attachments (run.map InlinePiece.piece)

/-- Pieces of a paragraph of which those that are filtered are text. -/
def AreSound (run : List InlinePiece) : Prop :=
  ∀ inline ∈ run, inline.spacing = some .filter → inline.piece.attachment = none

/-- Pieces of a paragraph without attachments. -/
def AreBare (run : List InlinePiece) : Prop := ∀ inline ∈ run, inline.piece.attachment = none

theorem areBare_nil : AreBare [] := fun _ member => by cases member

theorem areBare_append {first second : List InlinePiece} :
    AreBare (first ++ second) ↔ AreBare first ∧ AreBare second := List.forall_mem_append

theorem AreBare.covers {run : List InlinePiece} (bare : AreBare run) :
    bareness.CoversRun run := bare

end InlinePiece

theorem attachments_normalizeFrom (afterBlank : Bool) {run : List InlinePiece}
    (sound : InlinePiece.AreSound run) :
    Fragment.attachments (normalizeFrom afterBlank run) = InlinePiece.attachments run := by
  induction run generalizing afterBlank with
  | nil => rfl
  | cons inline rest ih =>
    obtain ⟨piece, spacing⟩ := inline
    obtain ⟨here, later⟩ := List.forall_mem_cons.mp sound
    have tail := fun after => ih after later
    unfold normalizeFrom InlinePiece.attachments
    rw [List.map_cons, Fragment.attachments_cons]
    by_cases filtered : spacing = some .filter
    · have runs : bareness.Covers piece.runs := PieceLaw.covers_cutBy _ (here filtered)
      have collapsed := PieceLaw.covers_collapseRuns afterBlank runs
      rw [if_pos filtered, here filtered]
      simp only
      rw [Fragment.attachments_append, tail]
      exact congrArg (· ++ InlinePiece.attachments rest) (isBare_iff.mp collapsed)
    · rw [if_neg filtered]
      by_cases void : piece.isVoid
      · rw [if_pos void, tail]
        unfold Piece.isVoid at void
        rw [Bool.and_eq_true] at void
        rw [Option.isNone_iff_eq_none.mp void.2]
        rfl
      · rw [if_neg void, Fragment.attachments_cons, tail]
        rfl

/-- **A paragraph has the attachments of its pieces.** -/
theorem Fragment.attachments_ofInline (container : Spacing) {run : List InlinePiece}
    (sound : InlinePiece.AreSound run) :
    (Fragment.ofInline container run).attachments = InlinePiece.attachments run := by
  unfold Fragment.ofInline
  simp only
  split
  · exact attachments_normalizeFrom true sound
  · rw [Fragment.trim, Fragment.attachments_trimBy, attachments_normalizeFrom true sound]

theorem isBare_normalizeFrom (afterBlank : Bool) {run : List InlinePiece}
    (bare : InlinePiece.AreBare run) : IsBare (normalizeFrom afterBlank run) :=
  PieceLaw.covers_normalizeFrom afterBlank bare.covers

theorem isBare_ofInline (container : Spacing) {run : List InlinePiece}
    (bare : InlinePiece.AreBare run) : (Fragment.ofInline container run).IsBare :=
  PieceLaw.covers_ofInline container bare.covers

open Fragment (bareness)

/-! ### Plain layouts -/

/-- A block laid out without attachments. -/
structure Laid.IsBare (laid : Laid) : Prop where
  inline : InlinePiece.AreBare laid.inline
  fragment : laid.fragment.IsBare

theorem isBare_contents (spacing : Spacing) (span : Span) {blocks : List Laid}
    (bare : ∀ laid ∈ blocks, laid.IsBare) : (contents spacing span blocks).IsBare := by
  have covers : ∀ laid ∈ blocks, bareness.CoversLaid laid := fun laid member =>
    ⟨trivial, (bare laid member).inline, (bare laid member).fragment⟩
  exact PieceLaw.covers_contents spacing trivial covers

/-- The text of a block is no attachment. -/
theorem bareness_admits (block : Block) : bareness.Admits block := by
  refine ⟨trivial, fun piece found => ?_⟩
  unfold Block.piece? at found
  split at found
  · rw [← Option.some.inj found]
    rfl
  · cases found

/-- **Plain text has no attachments.** -/
theorem isBare_layOutAll (context : LayoutContext) (blocks : List Block) :
    ∀ laid ∈ layOutAll .plain context blocks, laid.IsBare := by
  have covers : ∀ laid ∈ layOutAll .plain context blocks, bareness.CoversLaid laid :=
    PieceLaw.coversLaid_layOutAll Rendition.noConfusion context blocks fun inner _ =>
      bareness_admits inner
  exact fun laid member => ⟨(covers laid member).inline, (covers laid member).fragment⟩

theorem isBare_layOut (context : LayoutContext) (block : Block) :
    (layOut .plain context block).IsBare :=
  isBare_layOutAll context [block] _ List.mem_cons_self

/-! ### Both renditions -/

/-- A kind that becomes an attachment where attachments are kept. -/
def BlockKind.isAttachment : BlockKind → Bool
  | media _ => true
  | toolRequest _ _ _ => true
  | toolResponse _ _ => true
  | _ => false

/-- A kind that lets no attachment through from below: code and line breaks show text only, and the
answer of a tool becomes text. -/
def BlockKind.isSealed : BlockKind → Bool
  | code _ _ => true
  | lineBreak => true
  | toolResponse _ _ => true
  | _ => false

mutual

/-- The blocks that become attachments where attachments are kept, in the order of the document:
media, calls of tools and answers of tools, unless they are below a kind that is sealed. -/
def Block.carriers : Block → List Block
  | ⟨kind, presentation, speaker, spacing, children, span⟩ =>
    (if kind.isAttachment then [⟨kind, presentation, speaker, spacing, children, span⟩] else []) ++
      if kind.isSealed then [] else carriersAll children

/-- The blocks below some blocks that become attachments. -/
def Block.carriersAll : List Block → List Block
  | [] => []
  | block :: rest => block.carriers ++ carriersAll rest

end

theorem Block.carriersAll_eq_flatMap (blocks : List Block) :
    Block.carriersAll blocks = blocks.flatMap Block.carriers := by
  induction blocks with
  | nil => rfl
  | cons block rest ih => rw [Block.carriersAll, ih, List.flatMap_cons]

/-- Something in a block becomes an attachment. -/
def Block.hasAttachments (block : Block) : Bool :=
  block.walk.any fun inner => inner.kind.isAttachment

mutual

theorem Block.carriers_eq_nil (block : Block) (textual : block.hasAttachments = false) :
    block.carriers = [] := by
  obtain ⟨kind, presentation, speaker, spacing, children, span⟩ := block
  unfold Block.hasAttachments Block.walk at textual
  rw [List.any_cons, Bool.or_eq_false_iff] at textual
  rw [Block.carriers, textual.1, Block.carriersAll_eq_nil children textual.2]
  simp

theorem Block.carriersAll_eq_nil (blocks : List Block)
    (textual : (Block.walkAll blocks).any (fun inner => inner.kind.isAttachment) = false) :
    Block.carriersAll blocks = [] := by
  cases blocks with
  | nil => rfl
  | cons block rest =>
    unfold Block.walkAll at textual
    rw [List.any_append, Bool.or_eq_false_iff] at textual
    rw [Block.carriersAll, Block.carriers_eq_nil block textual.1,
      Block.carriersAll_eq_nil rest textual.2, List.append_nil]

end

theorem assemble_eq_plain {block : Block} (textual : block.kind.isAttachment = false)
    (rendition : Rendition) (context : LayoutContext) (children : List Laid) :
    assemble rendition context block children = assemble .plain context block children := by
  have form : blockForm rendition context block children =
      blockForm .plain context block children := by
    obtain ⟨kind, presentation, speaker, spacing, inner, span⟩ := block
    cases kind <;> first | rfl | cases textual
  unfold assemble
  rw [form]

theorem childRendition_eq {kind : BlockKind} (textual : kind.isAttachment = false)
    (rendition : Rendition) : childRendition kind rendition = rendition := by
  cases kind <;> first | rfl | cases textual

/-- Code and line breaks are laid out in the same way whatever is below them. -/
theorem assemble_sealed {block : Block} (closed : block.kind.isSealed)
    (textual : block.kind.isAttachment = false) (rendition : Rendition) (context : LayoutContext)
    (children others : List Laid) :
    assemble rendition context block children = assemble rendition context block others := by
  obtain ⟨kind, presentation, speaker, spacing, inner, span⟩ := block
  cases kind with
  | lineBreak => rfl
  | code language isInline => cases isInline <;> rfl
  | toolResponse id name => cases textual
  | _ => cases closed

mutual

/-- **Without attachments both renditions are the same.** -/
theorem layOut_eq_plain (rendition : Rendition) (context : LayoutContext) (block : Block)
    (textual : block.carriers = []) :
    layOut rendition context block = layOut .plain context block := by
  obtain ⟨kind, presentation, speaker, spacing, children, span⟩ := block
  rw [Block.carriers, List.append_eq_nil_iff] at textual
  have here : kind.isAttachment = false := by simpa using textual.1
  unfold layOut
  rw [assemble_eq_plain here, childRendition_eq here, childRendition_eq here]
  by_cases closed : kind.isSealed
  · exact assemble_sealed closed here .plain context _ _
  · rw [layOutAll_eq_plain rendition _ children (by simpa [closed] using textual.2)]

theorem layOutAll_eq_plain (rendition : Rendition) (context : LayoutContext) (blocks : List Block)
    (textual : Block.carriersAll blocks = []) :
    layOutAll rendition context blocks = layOutAll .plain context blocks := by
  cases blocks with
  | nil => rfl
  | cons block rest =>
    rw [Block.carriersAll, List.append_eq_nil_iff] at textual
    unfold layOutAll
    rw [layOut_eq_plain rendition context block textual.1,
      layOutAll_eq_plain rendition context rest textual.2]

end

end PromptMarkup
