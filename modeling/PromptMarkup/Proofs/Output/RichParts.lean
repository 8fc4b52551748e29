/-
**The parts of written documents.**

Rich output and the messages of a chat have one part for each carrier of a document, in order, with
nothing lost between the layout and the parts. Messages are laid out anew, from the first level of
headings on, so only the text of an answer may depend on where it is written.

* `attachments_splitParts`: the parts of a fragment have its attachments;
* `carriers_unitsOf`, `carriers_speakerRuns`: the carriers of a document are those of its messages;
* `writeRich_eq_plain`: without carriers rich output is plain text;
* `written_attachments`: the parts of rich output and of messages.
-/

import PromptMarkup.Proofs.Output.Carriers
import PromptMarkup.Proofs.Output.SpeakerRuns

namespace PromptMarkup

open Text (isBlankText)

/-! ### Parts of a fragment -/

theorem attachments_textPart (afterAttachment beforeAttachment : Bool) (chars : List Char) :
    (textPart afterAttachment beforeAttachment chars).filterMap RichPart.attachment? = [] := by
  have text : ∀ kept : List Char, (if kept.all Text.isBlank then []
      else [RichPart.text (String.ofList kept)]).filterMap RichPart.attachment? = [] := by
    intro kept
    split <;> rfl
  exact text _

theorem attachments_splitPartsFrom (afterAttachment : Bool) (chars : List Char)
    (fragment : Fragment) :
    (splitPartsFrom afterAttachment chars fragment).filterMap RichPart.attachment? =
      fragment.attachments := by
  induction fragment generalizing afterAttachment chars with
  | nil => exact attachments_textPart ..
  | cons piece rest ih =>
    rw [splitPartsFrom, Fragment.attachments_cons]
    cases piece.attachment with
    | none => exact ih ..
    | some attachment =>
      simp only
      rw [List.filterMap_append, attachments_textPart, List.nil_append]
      exact congrArg (attachment :: ·) (ih true [])

/-- **The parts of a fragment have its attachments.** -/
theorem attachments_splitParts (fragment : Fragment) :
    (splitParts fragment).filterMap RichPart.attachment? = fragment.attachments :=
  attachments_splitPartsFrom false [] fragment

/-- The attachments of some content. -/
def MessageContent.attachments (content : MessageContent) : List Attachment :=
  content.parts.filterMap RichPart.attachment?

theorem MessageContent.attachments_ofParts (parts : List RichPart) :
    (ofParts parts).attachments = parts.filterMap RichPart.attachment? := by
  unfold ofParts
  split <;> rfl

/-! ### Carriers of messages -/

section Kinds

variable {block : Block}

/-- A block that may be opened has the carriers of its children. -/
theorem Block.carriers_of_isContainer (container : block.kind.isContainer) :
    block.carriers = Block.carriersAll block.children := by
  obtain ⟨kind, presentation, speaker, spacing, children, span⟩ := block
  cases kind <;> first | rfl | cases container

theorem Block.carriers_of_isBlankText (blank : block.isBlankText) (bare : block.HasBareLeaves) :
    block.carriers = [] := by
  have none : block.children = [] := bare.here (BlockKind.isLeaf_of_isBlankText blank)
  obtain ⟨kind, presentation, speaker, spacing, children, span⟩ := block
  obtain rfl : children = [] := none
  cases kind <;> first | rfl | cases blank

end Kinds

mutual

/-- **The units of a block have its carriers**, and leaves in them are bare. -/
theorem carriers_unitsOf (around : Speaker) (block : Block) (bare : block.HasBareLeaves) :
    (unitsOf around block).flatMap (fun unit => unit.block.carriers) = block.carriers ∧
      ∀ unit ∈ unitsOf around block, unit.block.HasBareLeaves := by
  by_cases blank : block.isBlankText
  · rw [unitsOf_blank around blank, Block.carriers_of_isBlankText blank bare]
    exact ⟨rfl, List.forall_mem_nil _⟩
  · by_cases opened : block.isOpened
    · have container : block.kind.isContainer := by
        simp only [Block.isOpened, Bool.and_eq_true] at opened
        exact opened.2.1
      rw [unitsOf_opened around opened, Block.carriers_of_isContainer container]
      obtain ⟨kind, presentation, speaker, spacing, children, span⟩ := block
      exact carriers_unitsOfAll around children fun child member => bare.child member
    · rw [unitsOf_closed around (Bool.eq_false_iff.mpr blank) (Bool.eq_false_iff.mpr opened)]
      exact ⟨List.flatMap_singleton .., List.forall_mem_singleton.mpr bare⟩

theorem carriers_unitsOfAll (around : Speaker) (blocks : List Block)
    (bare : ∀ block ∈ blocks, block.HasBareLeaves) :
    (unitsOfAll around blocks).flatMap (fun unit => unit.block.carriers) =
        Block.carriersAll blocks ∧
      ∀ unit ∈ unitsOfAll around blocks, unit.block.HasBareLeaves := by
  cases blocks with
  | nil => exact ⟨rfl, List.forall_mem_nil _⟩
  | cons block rest =>
    obtain ⟨here, later⟩ := List.forall_mem_cons.mp bare
    obtain ⟨first, bareFirst⟩ := carriers_unitsOf around block here
    obtain ⟨others, bareOthers⟩ := carriers_unitsOfAll around rest later
    rw [unitsOfAll, List.flatMap_append, Block.carriersAll, first, others]
    exact ⟨rfl, List.forall_mem_append.mpr ⟨bareFirst, bareOthers⟩⟩

end

/-- The context of the blocks of a run: the first level of headings, and the presentation of the
first block. -/
def SpeakerRun.context (run : SpeakerRun) : LayoutContext :=
  ⟨1, (run.blocks.head?.map Block.presentation).getD .markdown⟩

/-- The carriers of a run, each in its place. -/
def SpeakerRun.carriers (run : SpeakerRun) : List Placed :=
  Block.carriersAtAll run.context run.blocks

section Runs

variable {document : Block} (single : Bool)

/-- The blocks of a chat are those of the units, also as a single message. -/
theorem blocks_speakerRuns_either :
    (speakerRuns document single).flatMap SpeakerRun.blocks =
      (units document).map SpeakerUnit.block := by
  cases single with
  | false => exact blocks_speakerRuns document
  | true => exact List.append_nil _

theorem hasBareLeaves_of_mem_blocks (bare : document.HasBareLeaves) {run : SpeakerRun}
    (member : run ∈ speakerRuns document single) : ∀ block ∈ run.blocks, block.HasBareLeaves := by
  intro block among
  have listed : block ∈ (speakerRuns document single).flatMap SpeakerRun.blocks :=
    List.mem_flatMap.mpr ⟨run, member, among⟩
  rw [blocks_speakerRuns_either] at listed
  obtain ⟨unit, present, rfl⟩ := List.mem_map.mp listed
  exact (carriers_unitsOfAll _ document.children fun child member => bare.child member).2 unit
    present

/-- **The carriers of a document are those of its messages.** -/
theorem carriers_speakerRuns (kind : document.kind = .document) (bare : document.HasBareLeaves) :
    ((speakerRuns document single).flatMap SpeakerRun.carriers).map Placed.block =
      document.carriers := by
  have projected : ∀ run : SpeakerRun,
      run.carriers.map Placed.block = run.blocks.flatMap Block.carriers := fun run => by
    rw [SpeakerRun.carriers, Block.map_carriersAtAll, Block.carriersAll_eq_flatMap]
  calc ((speakerRuns document single).flatMap SpeakerRun.carriers).map Placed.block
      = (speakerRuns document single).flatMap fun run => run.blocks.flatMap Block.carriers := by
        rw [List.map_flatMap]
        simp only [projected]
    _ = (units document).flatMap fun unit => unit.block.carriers := by
        rw [← List.flatMap_assoc, blocks_speakerRuns_either, List.flatMap_map]
    _ = Block.carriersAll document.children :=
        (carriers_unitsOfAll _ document.children fun child member => bare.child member).1
    _ = document.carriers := by
        rw [Block.carriers_of_isContainer (by rw [kind]; rfl)]

end Runs

/-! ### Written documents -/

/-- Without carriers rich output is the plain text, or nothing if that is blank. -/
theorem writeRich_eq_plain {document : Block} (none : document.carriers = []) :
    writeRich document =
      if isBlankText (writePlain document) then [] else [.text (writePlain document)] := by
  have bare : (layDocument .plain document).IsBare :=
    Fragment.isBare_trimBy _ _ (isBare_layOut _ document).fragment
  have rich : layDocument .rich document = layDocument .plain document := by
    rw [layDocument, layOut_eq_plain .rich _ document none, layDocument]
  unfold writeRich writePlain
  rw [rich, splitParts, splitPartsFrom_isBare bare, List.nil_append, Fragment.text_eq]
  simp [textPart, isBlankText]

/-- **Every carrier of a document is one part of what is written**, and there are no other parts
besides text. The parts of rich output are the carriers of the document, laid out where they stand;
the parts of all messages in a row are the same carriers, laid out in their messages, also when there
is a single message. Without carriers rich output is the plain text, or nothing if that is blank. -/
theorem written_attachments (root : ComponentNode) (single : Bool) :
    let document := presentDocument root
    let placed := document.carriersAt ⟨1, document.presentation⟩
    let spoken := (speakerRuns document single).flatMap SpeakerRun.carriers
    ((writeRich document).filterMap RichPart.attachment?).map some =
        placed.map Placed.attachment? ∧
      ((writeMessages document single).flatMap fun message => message.content.attachments).map some =
        spoken.map Placed.attachment? ∧
      placed.map Placed.block = document.carriers ∧ spoken.map Placed.block = document.carriers ∧
      (document.carriers = [] → writeRich document =
        if isBlankText (writePlain document) then [] else [.text (writePlain document)]) := by
  intro document placed spoken
  have bare : document.HasBareLeaves := hasBareLeaves_presentDocument root
  refine ⟨?_, ?_, Block.map_carriersAt _ document,
    carriers_speakerRuns single (kind_presentDocument root) bare, writeRich_eq_plain⟩
  · rw [writeRich, attachments_splitParts, layDocument, trimDocument, Fragment.attachments_trimBy]
    exact (layOut_attachments _ document bare).2
  · have run : ∀ run ∈ speakerRuns document single,
        (MessageContent.ofParts (splitParts (layBlocks .rich run.blocks run.span))).attachments.map
          some = run.carriers.map Placed.attachment? := by
      intro run member
      obtain ⟨faithful, same⟩ := layOutAll_attachments run.context run.blocks
        (hasBareLeaves_of_mem_blocks single bare member)
      rw [MessageContent.attachments_ofParts, attachments_splitParts, layBlocks, trimDocument,
        Fragment.attachments_trimBy, ← SpeakerRun.context, attachments_contents _ _ faithful]
      exact same
    simp only [writeMessages, List.flatMap_map, List.map_flatMap, spoken]
    exact List.flatMap_congr run

/-- A heading in an answer of a tool that is deep in a document. -/
def Prompt.deepAnswer : Prompt :=
  .plain "<section><tool-response id=\"a\" name=\"b\"><h>T</h></tool-response></section>"

/-- An answer with a heading reads differently in rich output and in its message. -/
theorem attachments_ne_deepAnswer :
    let document := (Prompt.deepAnswer.compile (.ofFrame [])).document
    (writeRich document).filterMap RichPart.attachment? ≠
      (writeMessages document false).flatMap fun message => message.content.attachments := by
  intro document same
  have rich : ((writeRich document).filterMap RichPart.attachment?).map (·.toJson.compress) =
      ["\x7b\"type\":\"tool_response\",\"id\":\"a\",\"name\":\"b\",\"content\":\"## T\"\x7d"] := by
    decide +kernel
  have spoken : ((writeMessages document false).flatMap fun message =>
      message.content.attachments).map (·.toJson.compress) =
        ["\x7b\"type\":\"tool_response\",\"id\":\"a\",\"name\":\"b\",\"content\":\"# T\"\x7d"] := by
    decide +kernel
  rw [same, spoken] at rich
  revert rich
  decide

end PromptMarkup
