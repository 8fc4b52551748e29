/-
**The blocks behind attachments.**

An attachment stands in the layout for one block: for media and for calls of tools it says what the
block says, and the answer of a tool is the plain text of its block. Pieces with attachments are
never dropped, whatever happens to the text around them, so the attachments of a layout are those of
its carriers one by one.

* `Placed`, `Block.carriersAt`: the carriers of a block with what they know of the blocks around;
* `attachments_contents`, `attachments_layItems`, `attachments_layCaptioned`: blocks put together;
* `Laid.IsFaithful`: a block has the same attachments on its own and in a paragraph;
* `attachments_blockForm`: the attachments of one block by those of its children;
* `layOut_attachments`: the attachments of a layout are those of its carriers.
-/

import PromptMarkup.Proofs.Block.Positions
import PromptMarkup.Proofs.Output.PlainLayout

namespace PromptMarkup

open Fragment (isBare_iff)

/-! ### Carriers in their places -/

/-- A block with what it knows of the blocks around it. -/
structure Placed where
  context : LayoutContext
  block : Block

/-- What a block becomes where attachments are kept: media and calls stay what they are, and an
answer of a tool is its plain text. -/
def Placed.attachment? (placed : Placed) : Option Attachment :=
  match placed.block.kind with
  | .media clip => some (.media clip)
  | .toolRequest id name parameters => some (.toolRequest id name parameters)
  | .toolResponse id name =>
    some (.toolResponse id name (layOut .plain placed.context placed.block).fragment.text)
  | _ => none

mutual

/-- The carriers of a block, each in its place. -/
def Block.carriersAt (context : LayoutContext) : Block → List Placed
  | ⟨kind, presentation, speaker, spacing, children, span⟩ =>
    (if kind.isAttachment then
      [⟨context, ⟨kind, presentation, speaker, spacing, children, span⟩⟩] else []) ++
      if kind.isSealed then []
      else carriersAtAll (childContext kind presentation context) children

/-- The carriers of some blocks, each in its place. -/
def Block.carriersAtAll (context : LayoutContext) : List Block → List Placed
  | [] => []
  | block :: rest => block.carriersAt context ++ carriersAtAll context rest

end

mutual

theorem Block.map_carriersAt (context : LayoutContext) (block : Block) :
    (block.carriersAt context).map Placed.block = block.carriers := by
  obtain ⟨kind, presentation, speaker, spacing, children, span⟩ := block
  rw [Block.carriersAt, Block.carriers, List.map_append]
  congr 1
  · split <;> rfl
  · split
    · rfl
    · exact Block.map_carriersAtAll _ children

theorem Block.map_carriersAtAll (context : LayoutContext) (blocks : List Block) :
    (Block.carriersAtAll context blocks).map Placed.block = Block.carriersAll blocks := by
  cases blocks with
  | nil => rfl
  | cons block rest =>
    rw [Block.carriersAtAll, Block.carriersAll, List.map_append, Block.map_carriersAt context block,
      Block.map_carriersAtAll context rest]

end

/-! ### Fragments put together -/

namespace Fragment

/-- **Joining keeps the attachments.** -/
theorem attachments_join (separator : String) (span : Span) (fragments : List Fragment) :
    (join separator span fragments).attachments = fragments.flatMap attachments := by
  unfold join
  induction fragments with
  | nil => rfl
  | cons first rest ih =>
    cases rest with
    | nil => simp
    | cons second more =>
      simp only [List.intersperse_cons_cons, List.flatten_cons, attachments_append,
        attachments_synthetic, List.nil_append] at ih ⊢
      rw [ih]
      rfl

end Fragment

/-- What is dropped for being blank has no attachments. -/
theorem attachments_visible (fragment : Fragment) :
    (visible fragment).flatMap Fragment.attachments = fragment.attachments := by
  unfold visible
  split
  next blank => rw [Fragment.attachments_of_isBlank blank, List.flatMap_nil]
  next => exact List.flatMap_singleton ..

/-! ### Blocks put together -/

namespace InlinePiece

variable {first second : List InlinePiece}

theorem attachments_append : attachments (first ++ second) =
    attachments first ++ attachments second := by
  unfold attachments
  rw [List.map_append, Fragment.attachments_append]

theorem areSound_append (soundFirst : AreSound first) (soundSecond : AreSound second) :
    AreSound (first ++ second) := fun inline member =>
  (List.mem_append.mp member).elim (soundFirst inline) (soundSecond inline)

theorem AreBare.areSound (bare : AreBare first) : AreSound first := fun inline member _ =>
  bare inline member

theorem AreBare.attachments_eq (bare : AreBare first) : attachments first = [] :=
  isBare_iff.mp fun piece member => by
    obtain ⟨inline, among, rfl⟩ := List.mem_map.mp member
    exact bare inline among

theorem areBare_marks (text : String) (span : Span) : AreBare (marks text span) := by
  unfold marks
  split
  · exact areBare_nil
  · exact List.forall_mem_singleton.mpr rfl

end InlinePiece

/-- The attachments of a block laid out. -/
def Laid.attachments (laid : Laid) : List Attachment := laid.fragment.attachments

/-- A block has the same attachments in a paragraph and on its own. -/
structure Laid.IsFaithful (laid : Laid) : Prop where
  sound : InlinePiece.AreSound laid.inline
  same : InlinePiece.attachments laid.inline = laid.attachments

section Contents

variable {blocks : List Laid}

theorem attachments_inlines (faithful : ∀ laid ∈ blocks, laid.IsFaithful) :
    InlinePiece.AreSound (blocks.flatMap Laid.inline) ∧
      InlinePiece.attachments (blocks.flatMap Laid.inline) = blocks.flatMap Laid.attachments := by
  induction blocks with
  | nil => exact ⟨InlinePiece.areBare_nil.areSound, rfl⟩
  | cons laid rest ih =>
    obtain ⟨here, later⟩ := List.forall_mem_cons.mp faithful
    obtain ⟨sound, same⟩ := ih later
    refine ⟨InlinePiece.areSound_append here.sound sound, ?_⟩
    rw [List.flatMap_cons, List.flatMap_cons, InlinePiece.attachments_append, here.same, same]

theorem attachments_groupsFrom (spacing : Spacing) {run : List InlinePiece}
    (sound : InlinePiece.AreSound run) (faithful : ∀ laid ∈ blocks, laid.IsFaithful) :
    (groupsFrom spacing run blocks).flatMap Fragment.attachments =
      InlinePiece.attachments run ++ blocks.flatMap Laid.attachments := by
  induction blocks generalizing run with
  | nil => rw [groupsFrom, attachments_visible, Fragment.attachments_ofInline spacing sound,
      List.flatMap_nil, List.append_nil]
  | cons laid rest ih =>
    obtain ⟨here, later⟩ := List.forall_mem_cons.mp faithful
    rw [groupsFrom, List.flatMap_cons]
    split
    · rw [ih (InlinePiece.areSound_append sound here.sound) later, InlinePiece.attachments_append,
        here.same, List.append_assoc]
    · rw [List.flatMap_append, List.flatMap_append, attachments_visible, attachments_visible,
        Fragment.attachments_ofInline spacing sound, ih InlinePiece.areBare_nil.areSound later,
        List.append_assoc]
      rfl

/-- **Blocks in a row keep the attachments of all of them.** -/
theorem attachments_contents (spacing : Spacing) (span : Span)
    (faithful : ∀ laid ∈ blocks, laid.IsFaithful) :
    (contents spacing span blocks).attachments = blocks.flatMap Laid.attachments := by
  rw [contents, Fragment.attachments_join, groups,
    attachments_groupsFrom spacing InlinePiece.areBare_nil.areSound faithful]
  rfl

theorem attachments_layItems (style : ListStyle) (index : Nat) (blocks : List Laid) :
    (layItems style index blocks).flatMap Fragment.attachments =
      blocks.flatMap Laid.attachments := by
  induction blocks generalizing index with
  | nil => rfl
  | cons item rest ih =>
    rw [layItems, List.flatMap_cons, List.flatMap_cons, ih]
    simp [Laid.attachments]

end Contents

section Kinds

variable (context : LayoutContext) (presentation : Presentation) (span : Span)

theorem attachments_layParagraph (body : Fragment) :
    (layParagraph context presentation span body).attachments = body.attachments := by
  unfold layParagraph
  split <;> simp

theorem attachments_layHeading (level : Nat) (content : Fragment) :
    (layHeading presentation span level content).attachments = content.attachments := by
  unfold layHeading
  simp only
  split
  · simp
  · split <;> simp

theorem attachments_layCaption (separator : String) {caption : Fragment}
    (bare : caption.attachments = []) (body : Fragment) :
    (layCaption separator span caption body).attachments = body.attachments := by
  unfold layCaption
  split
  next blank => rw [bare, Fragment.attachments_of_isBlank blank]
  next => simp [Fragment.attachments_join, bare]

theorem attachments_layCaptioned (caption : String) (style : CaptionStyle)
    (ending : CaptionEnding) (inlineBody : Bool) (body : Fragment) :
    (layCaptioned context presentation span caption style ending inlineBody body).attachments =
      body.attachments := by
  unfold layCaptioned
  split
  · rfl
  · refine attachments_layCaption span _ ?_ body
    rw [attachments_layHeading, Fragment.attachments_synthetic]
  · exact attachments_layCaption span _ (Fragment.attachments_synthetic _ _) body

/-- The text of some blocks has no attachments. -/
theorem isBare_verbatim (blocks : List Block) : (verbatim blocks).IsBare := by
  intro piece member
  obtain ⟨inner, _, found⟩ := List.mem_filterMap.mp (List.mem_filter.mp member).1
  exact (bareness_admits inner).2 piece found

theorem attachments_layCode (language : Option String) (blocks : List Block) :
    (layCode presentation language span (verbatim blocks)).attachments = [] := by
  have bare := isBare_iff.mp (isBare_verbatim blocks)
  unfold layCode
  simp only
  split
  · simp [bare]
  · split <;> simp [bare]

theorem attachments_layData (value : Json) :
    (layData context presentation span value).attachments = [] := by
  unfold layData
  simp only
  split <;> simp

end Kinds

/-! ### Blocks -/

section Blocks

variable (context : LayoutContext) {block : Block} {children : List Laid}

/-- The inline form of a block has the attachments that are inside of it. -/
theorem attachments_inlineForm (faithful : ∀ laid ∈ children, laid.IsFaithful)
    {run : List InlinePiece} (found : inlineForm? block children = some run) :
    InlinePiece.AreSound run ∧ InlinePiece.attachments run =
      if block.kind.isSealed || block.kind.isLeaf then []
      else children.flatMap Laid.attachments := by
  have marked : ∀ (marks : String × String) {inner : List InlinePiece},
      InlinePiece.AreSound inner →
        InlinePiece.AreSound (InlinePiece.marks marks.1 block.span ++ inner ++
          InlinePiece.marks marks.2 block.span) ∧
        InlinePiece.attachments (InlinePiece.marks marks.1 block.span ++ inner ++
          InlinePiece.marks marks.2 block.span) = InlinePiece.attachments inner := by
    intro marks inner sound
    have first := InlinePiece.areBare_marks marks.1 block.span
    have last := InlinePiece.areBare_marks marks.2 block.span
    refine ⟨InlinePiece.areSound_append (InlinePiece.areSound_append first.areSound sound)
      last.areSound, ?_⟩
    rw [InlinePiece.attachments_append, InlinePiece.attachments_append, first.attachments_eq,
      last.attachments_eq, List.nil_append, List.append_nil]
  unfold inlineForm? at found
  simp only at found
  split at found
  next value exact kind =>
    obtain rfl := Option.some.inj found
    rw [kind]
    have bare : InlinePiece.AreBare
        [⟨.ofText value block.span exact, some block.spacing⟩] := List.forall_mem_singleton.mpr rfl
    exact ⟨bare.areSound, bare.attachments_eq⟩
  next kind =>
    obtain rfl := Option.some.inj found
    rw [kind]
    have bare : InlinePiece.AreBare [.mark "\n" block.span] := List.forall_mem_singleton.mpr rfl
    exact ⟨bare.areSound, bare.attachments_eq⟩
  next style kind =>
    obtain rfl := Option.some.inj found
    obtain ⟨sound, same⟩ := attachments_inlines faithful
    rw [kind]
    exact ⟨(marked _ sound).1, (marked _ sound).2.trans same⟩
  next language kind =>
    obtain rfl := Option.some.inj found
    have bare : InlinePiece.AreBare ((verbatim block.children).map fun piece =>
        ⟨piece, some Spacing.pre⟩) := by
      intro inline member
      obtain ⟨piece, among, rfl⟩ := List.mem_map.mp member
      exact isBare_verbatim block.children piece among
    rw [kind]
    exact ⟨(marked _ bare.areSound).1, (marked _ bare.areSound).2.trans bare.attachments_eq⟩
  next => cases found

/-- **The attachments of a block on its own** are its own one and those of its children. -/
theorem attachments_blockForm (faithful : ∀ laid ∈ children, laid.IsFaithful)
    (bare : block.kind.isLeaf → children = [])
    (unasked : ∀ id name, block.kind ≠ .toolResponse id name) :
    (blockForm .rich context block children).attachments =
      (Placed.attachment? ⟨context, block⟩).toList ++
        if block.kind.isSealed then [] else children.flatMap Laid.attachments := by
  have body := attachments_contents block.spacing block.span faithful
  have inline : ∀ run, inlineForm? block children = some run →
      (Fragment.ofInline block.spacing run).attachments =
        if block.kind.isSealed || block.kind.isLeaf then []
        else children.flatMap Laid.attachments := fun run found => by
    obtain ⟨sound, same⟩ := attachments_inlineForm faithful found
    rw [Fragment.attachments_ofInline block.spacing sound, same]
  obtain ⟨kind, presentation, speaker, spacing, inner, span⟩ := block
  cases kind with
  | document | message | division | listItem => exact body
  | paragraph => exact (attachments_layParagraph context presentation span _).trans body
  | heading =>
    obtain ⟨sound, same⟩ := attachments_inlines faithful
    exact (attachments_layHeading presentation span _ _).trans
      ((Fragment.attachments_ofInline spacing sound).trans same)
  | captioned caption style ending =>
    exact (attachments_layCaptioned context presentation span caption style ending _ _).trans body
  | list style =>
    exact (Fragment.attachments_join _ _ _).trans (attachments_layItems style 0 children)
  | table header rows =>
    rw [bare rfl]
    exact Fragment.attachments_synthetic _ _
  | code language isInline => exact attachments_layCode presentation span language inner
  | data value =>
    rw [bare rfl]
    exact attachments_layData context presentation span value
  | media clip =>
    rw [bare rfl]
    rfl
  | toolRequest id name parameters =>
    rw [bare rfl]
    rfl
  | toolResponse id name => exact absurd rfl (unasked id name)
  | text value exact =>
    rw [bare rfl] at inline ⊢
    exact inline _ rfl
  | lineBreak => exact inline _ rfl
  | inline style => exact inline _ rfl

/-- A block that is put together has the same attachments in a paragraph and on its own. -/
theorem isFaithful_assemble (rendition : Rendition)
    (faithful : ∀ laid ∈ children, laid.IsFaithful) :
    (assemble rendition context block children).IsFaithful := by
  unfold assemble
  cases found : inlineForm? block children with
  | none =>
    refine ⟨fun inline member filtered => ?_, ?_⟩
    · obtain ⟨piece, _, rfl⟩ := List.mem_map.mp member
      cases filtered
    · simp only [Option.getD_none, InlinePiece.attachments, List.map_map]
      exact congrArg Fragment.attachments (List.map_id _)
  | some run =>
    obtain ⟨sound, same⟩ := attachments_inlineForm faithful found
    refine ⟨sound, ?_⟩
    obtain ⟨kind, presentation, speaker, spacing, inner, span⟩ := block
    have shown := Fragment.attachments_ofInline spacing sound
    cases kind with
    | text | lineBreak | inline =>
      obtain rfl := Option.some.inj found
      exact shown.symm
    | code language isInline => exact same.trans (attachments_layCode presentation span language inner).symm
    | _ => cases found

end Blocks

/-! ### Layouts -/

theorem Placed.attachment?_eq_none {placed : Placed}
    (textual : placed.block.kind.isAttachment = false) : placed.attachment? = none := by
  obtain ⟨context, kind, presentation, speaker, spacing, children, span⟩ := placed
  cases kind <;> first | rfl | cases textual

theorem Placed.isSome_attachment? {placed : Placed} (carries : placed.block.kind.isAttachment) :
    placed.attachment?.isSome := by
  obtain ⟨context, kind, presentation, speaker, spacing, children, span⟩ := placed
  cases kind <;> first | rfl | cases carries

/-- A block of plain text has no attachments anywhere. -/
theorem Laid.IsBare.isFaithful {laid : Laid} (bare : laid.IsBare) : laid.IsFaithful :=
  ⟨bare.inline.areSound, bare.inline.attachments_eq.trans (isBare_iff.mp bare.fragment).symm⟩

theorem Placed.map_attachment? (placed : Placed) :
    placed.attachment?.toList.map some =
      (if placed.block.kind.isAttachment then [placed] else []).map Placed.attachment? := by
  by_cases carries : placed.block.kind.isAttachment
  · obtain ⟨attachment, found⟩ := Option.isSome_iff_exists.mp (isSome_attachment? carries)
    simp [carries, found]
  · simp [carries, attachment?_eq_none (by simpa using carries)]

mutual

/-- **The attachments of a layout are those of its carriers**, one for one and in order. -/
theorem layOut_attachments (context : LayoutContext) (block : Block) (bare : block.HasBareLeaves) :
    (layOut .rich context block).IsFaithful ∧
      (layOut .rich context block).attachments.map some =
        (block.carriersAt context).map Placed.attachment? := by
  by_cases asked : ∃ id name, block.kind = .toolResponse id name
  · -- The text of an answer is laid out plainly, so nothing below it is an attachment.
    obtain ⟨id, name, kind⟩ := asked
    obtain ⟨_, presentation, speaker, spacing, children, span⟩ := block
    obtain rfl : _ = BlockKind.toolResponse id name := kind
    exact ⟨isFaithful_assemble context .rich fun laid member =>
      (isBare_layOutAll _ children laid member).isFaithful, rfl⟩
  · have unasked : ∀ id name, block.kind ≠ .toolResponse id name := fun id name same =>
      asked ⟨id, name, same⟩
    obtain ⟨kind, presentation, speaker, spacing, children, span⟩ := block
    obtain ⟨faithful, same⟩ := layOutAll_attachments (childContext kind presentation context)
      children fun child member => bare.child member
    have empty : kind.isLeaf → layOutAll .rich (childContext kind presentation context) children =
        [] := fun leaf => by
      rw [show children = [] from bare.here leaf]
      rfl
    have rich : childRendition kind .rich = .rich := by
      cases kind <;> first | rfl | exact absurd rfl (unasked _ _)
    rw [layOut, rich]
    refine ⟨isFaithful_assemble context .rich faithful, ?_⟩
    refine (congrArg (List.map some)
      (attachments_blockForm context faithful empty unasked)).trans ?_
    rw [List.map_append, Placed.map_attachment?, Block.carriersAt, List.map_append]
    congr 1
    show List.map some (if kind.isSealed then [] else _) = _
    by_cases closed : kind.isSealed
    · simp [closed]
    · simpa [closed] using same

theorem layOutAll_attachments (context : LayoutContext) (blocks : List Block)
    (bare : ∀ block ∈ blocks, block.HasBareLeaves) :
    (∀ laid ∈ layOutAll .rich context blocks, laid.IsFaithful) ∧
      ((layOutAll .rich context blocks).flatMap Laid.attachments).map some =
        (Block.carriersAtAll context blocks).map Placed.attachment? := by
  cases blocks with
  | nil => exact ⟨List.forall_mem_nil _, rfl⟩
  | cons block rest =>
    obtain ⟨here, later⟩ := List.forall_mem_cons.mp bare
    obtain ⟨first, same⟩ := layOut_attachments context block here
    obtain ⟨others, equal⟩ := layOutAll_attachments context rest later
    refine ⟨List.forall_mem_cons.mpr ⟨first, others⟩, ?_⟩
    rw [layOutAll, List.flatMap_cons, List.map_append, same, equal, Block.carriersAtAll,
      List.map_append]

end

end PromptMarkup
