/-
**Documents in which nobody is named.**

The chat of a document that names no speaker is one message. Its content is laid out from the
children of the document that are not blank text, and the first of them says how. So it is the plain
text of another document, which need not read the same: blank text between two inline blocks is lost
on the way.

* `Block.spoken`: a document as a chat lays it out;
* `units_eq_map`, `speakerRuns_eq_singleton`: the units of such a document, and its only run;
* `writeMessages_eq_spoken`: the only message;
* `writePlain_spoken`: a document that reads the same in a chat;
* `messages_eq_plain_iff`: when the message of a compiled document is its plain text.
-/

import Mathlib
import PromptMarkup.Compilation
import PromptMarkup.Proofs.Output.ParagraphText

namespace PromptMarkup

open Text (isBlank isBlankText)

/-! ### Spoken documents -/

/-- A document as a chat lays it out: without the blank text among its children, and in the manner
of the first of the others. -/
def Block.spoken (document : Block) : Block :=
  let shown := shownBlocks document.children
  { document with
    presentation := (shown.head?.map Block.presentation).getD .markdown
    spacing := (shown.head?.map Block.spacing).getD .filter
    children := shown }

/-! ### Units -/

theorem namesSpeaker_child {document child : Block} (silent : document.namesSpeaker = false)
    (member : child ∈ document.children) : child.namesSpeaker = false := by
  obtain ⟨kind, presentation, speaker, spacing, children, span⟩ := document
  unfold Block.namesSpeaker Block.walk at silent
  rw [List.any_cons, Bool.or_eq_false_iff] at silent
  have below := silent.2
  clear silent
  simp only at member
  induction children with
  | nil => cases member
  | cons first rest ih =>
    unfold Block.walkAll at below
    rw [List.any_append, Bool.or_eq_false_iff] at below
    rcases List.mem_cons.mp member with rfl | later
    · exact below.1
    · exact ih later below.2

theorem speaker_eq_none {block : Block} (silent : block.namesSpeaker = false) :
    block.speaker = none := by
  obtain ⟨kind, presentation, speaker, spacing, children, span⟩ := block
  unfold Block.namesSpeaker Block.walk at silent
  rw [List.any_cons, Bool.or_eq_false_iff] at silent
  exact Option.not_isSome_iff_eq_none.mp (Bool.eq_false_iff.mp silent.1)

/-- A block that names nobody is one unit, unless it is blank text. -/
theorem unitsOf_eq (around : Speaker) {block : Block} (silent : block.namesSpeaker = false) :
    unitsOf around block = if block.isBlankText then [] else [⟨around, block⟩] := by
  have quiet : block.children.any Block.namesSpeaker = false :=
    List.any_eq_false.mpr fun child member => by
      rw [namesSpeaker_child silent member]
      decide
  have nobody := speaker_eq_none silent
  obtain ⟨kind, presentation, speaker, spacing, children, span⟩ := block
  simp only at nobody quiet
  subst nobody
  unfold unitsOf
  simp only [quiet, Bool.and_false, Bool.false_eq_true, if_false]
  rfl

/-- **The units of a document that names nobody** are its children, said by a human. -/
theorem units_eq_map {document : Block} (silent : document.namesSpeaker = false) :
    units document = (shownBlocks document.children).map (SpeakerUnit.mk .human) := by
  have root : rootSpeaker document = .human := by
    unfold rootSpeaker
    rw [speaker_eq_none silent]
    rfl
  unfold units shownBlocks
  rw [root]
  have quiet := fun child (member : child ∈ document.children) => namesSpeaker_child silent member
  generalize document.children = children at quiet
  induction children with
  | nil => rfl
  | cons first rest ih =>
    obtain ⟨here, later⟩ := List.forall_mem_cons.mp quiet
    unfold unitsOfAll
    rw [ih later, unitsOf_eq .human here, List.filter_cons]
    cases first.isBlankText <;> rfl

/-- Units of a human make one run. -/
theorem foldr_addUnit (first : Block) (rest : List Block) :
    ∃ span, ((first :: rest).map (SpeakerUnit.mk .human)).foldr addUnit [] =
      [⟨.human, first :: rest, span⟩] := by
  induction rest generalizing first with
  | nil => exact ⟨first.span, rfl⟩
  | cons second more ih =>
    obtain ⟨span, found⟩ := ih second
    refine ⟨first.span.cover span, ?_⟩
    rw [List.map_cons, List.foldr_cons, found]
    rfl

/-- **The only run of a document that names nobody**, if it shows anything. -/
theorem speakerRuns_eq_singleton {document : Block} (silent : document.namesSpeaker = false)
    (some : shownBlocks document.children ≠ []) :
    ∃ span, speakerRuns document false =
      [⟨.human, shownBlocks document.children, span⟩] := by
  unfold speakerRuns
  rw [if_neg Bool.false_ne_true, units_eq_map silent]
  obtain ⟨first, rest, shown⟩ := List.exists_cons_of_ne_nil some
  rw [shown]
  exact foldr_addUnit first rest

/-! ### Plain text -/

/-- The plain text of a document by way of its children. -/
theorem layDocument_eq {document : Block} (kind : document.kind = .document) :
    layDocument .plain document =
      trimDocument (contents document.spacing document.span
        (layOutAll .plain ⟨1, document.presentation⟩ document.children)) := by
  obtain ⟨what, presentation, speaker, spacing, children, span⟩ := document
  simp only at kind
  subst kind
  rfl

/-- Documents laid out from fragments of the same text have the same text. -/
theorem text_trimDocument {first second : Fragment} (bareFirst : first.IsBare)
    (bareSecond : second.IsBare) (same : first.chars = second.chars) :
    (trimDocument first).text = (trimDocument second).text := by
  unfold trimDocument
  rw [Fragment.text_eq, Fragment.text_eq, Fragment.chars_trimBy _ _ bareFirst,
    Fragment.chars_trimBy _ _ bareSecond, same]

theorem hasAttachments_shownBlocks {document : Block} (textual : document.hasAttachments = false) :
    (Block.walkAll (shownBlocks document.children)).any
      (fun inner => inner.kind.isAttachment) = false := by
  obtain ⟨kind, presentation, speaker, spacing, children, span⟩ := document
  unfold Block.hasAttachments Block.walk at textual
  rw [List.any_cons, Bool.or_eq_false_iff] at textual
  have below := textual.2
  clear textual
  unfold shownBlocks
  simp only
  induction children with
  | nil => rfl
  | cons first rest ih =>
    unfold Block.walkAll at below
    rw [List.any_append, Bool.or_eq_false_iff] at below
    rw [List.filter_cons]
    split
    · unfold Block.walkAll
      rw [List.any_append, Bool.or_eq_false_iff]
      exact ⟨below.1, ih below.2⟩
    · exact ih below.2

/-- A document that shows none of its children has no plain text. -/
theorem shownBlocks_ne_nil {document : Block} (kind : document.kind = .document)
    (visible : isBlankText (writePlain document) = false) :
    shownBlocks document.children ≠ [] := by
  intro none
  have blank : ∀ block ∈ document.children, block.isBlankText := by
    intro block member
    have hidden := List.filter_eq_nil_iff.mp none block member
    simpa using hidden
  have empty : isBlankText (writePlain document) = true := by
    unfold writePlain
    rw [layDocument_eq kind, contents, groups,
      groupsFrom_blank document.spacing .plain _ areBlank_nil blank]
    rfl
  rw [empty] at visible
  cases visible

/-! ### The message -/

/-- **The only message of a document that names nobody** is the plain text of the document as a
chat lays it out. -/
theorem writeMessages_eq_spoken {document : Block} (kind : document.kind = .document)
    (silent : document.namesSpeaker = false) (textual : document.hasAttachments = false)
    (visible : isBlankText (writePlain document) = false) :
    writeMessages document false = [⟨.human, .text (writePlain document.spoken)⟩] := by
  obtain ⟨span, runs⟩ := speakerRuns_eq_singleton silent (shownBlocks_ne_nil kind visible)
  have bare := fun span => isBare_contents document.spoken.spacing span
    (isBare_layOutAll ⟨1, document.spoken.presentation⟩ (shownBlocks document.children))
  have laid : layBlocks .rich (shownBlocks document.children) span =
      trimDocument (contents document.spoken.spacing span
        (layOutAll .plain ⟨1, document.spoken.presentation⟩ (shownBlocks document.children))) := by
    rw [← layOutAll_eq_plain .rich _ _
      (Block.carriersAll_eq_nil _ (hasAttachments_shownBlocks textual))]
    rfl
  have plain : writePlain document.spoken =
      (trimDocument (contents document.spoken.spacing span
        (layOutAll .plain ⟨1, document.spoken.presentation⟩
          (shownBlocks document.children)))).text := by
    unfold writePlain
    rw [layDocument_eq (show document.spoken.kind = .document from kind)]
    refine text_trimDocument (bare _) (bare _) ?_
    unfold contents
    rw [Fragment.chars_join, Fragment.chars_join]
    rfl
  unfold writeMessages
  rw [runs, List.map_singleton, laid, ofParts_splitParts_trimDocument (bare span), plain]

/-- **A document reads the same in a chat** if it is laid out in the manner of its first child and
no blank text parts two inline children. -/
theorem writePlain_spoken {document : Block} (kind : document.kind = .document)
    (loose : document.spacing ≠ .pre)
    (presentation : document.spoken.presentation = document.presentation)
    (spacing : document.spoken.spacing = document.spacing)
    (kept : partsWords document.children = false) :
    writePlain document.spoken = writePlain document := by
  unfold writePlain
  rw [layDocument_eq (show document.spoken.kind = .document from kind), layDocument_eq kind,
    presentation, spacing]
  refine text_trimDocument (isBare_contents _ _ (isBare_layOutAll _ _))
    (isBare_contents _ _ (isBare_layOutAll _ _)) ?_
  exact (chars_contents_shownBlocks loose ⟨1, document.presentation⟩ document.span kept).symm

/-! ### Compiled documents -/

theorem kind_presentDocument (root : ComponentNode) : (presentDocument root).kind = .document := by
  unfold presentDocument
  simp only
  split
  next block found =>
    split
    next kind => exact kind
    next => rfl
  next => rfl

/-- **When the chat of a document that names nobody is its plain text.** The chat is one message,
which is the plain text of the document as a chat lays it out. That is the plain text of the
document itself if and only if both documents read the same. They do if the first child that is
shown is presented and spaced as the document, blanks at the ends of paragraphs are not kept, and no
blank text parts two inline children. -/
theorem messages_eq_plain_iff (prompt : Prompt) (scope : Scope)
    (silent : (prompt.compile scope).document.namesSpeaker = false)
    (textual : (prompt.compile scope).document.hasAttachments = false)
    (visible : isBlankText (writePlain (prompt.compile scope).document) = false) :
    let document := (prompt.compile scope).document
    writeMessages document false = [⟨.human, .text (writePlain document.spoken)⟩] ∧
      (writeMessages document false = [⟨.human, .text (writePlain document)⟩] ↔
        writePlain document.spoken = writePlain document) ∧
      (document.spacing ≠ .pre → document.spoken.presentation = document.presentation →
        document.spoken.spacing = document.spacing → partsWords document.children = false →
        writePlain document.spoken = writePlain document) := by
  intro document
  have kind : document.kind = .document := kind_presentDocument _
  have message := writeMessages_eq_spoken kind silent textual visible
  refine ⟨message, ?_, writePlain_spoken kind⟩
  rw [message]
  constructor
  · intro same
    injection same with head
    injection head with speaker content
    injection content
  · intro same
    rw [same]

/-- The prompt of a source for which there are no files. -/
def Prompt.plain (source : String) : Prompt :=
  .ofSource (.standard (.ofTable [])) source

theorem messages_eq_plain_iff_one_word :
    let document := ((Prompt.plain "word").compile (.ofFrame [])).document
    document.namesSpeaker = false ∧ document.hasAttachments = false ∧
      isBlankText (writePlain document) = false ∧ document.spacing ≠ .pre ∧
      writeMessages document false = [⟨.human, .text (writePlain document)⟩] := by
  have silent : ((Prompt.plain "word").compile (.ofFrame [])).document.namesSpeaker = false := by
    cbv
  have textual : ((Prompt.plain "word").compile (.ofFrame [])).document.hasAttachments = false := by
    cbv
  have visible :
      isBlankText (writePlain ((Prompt.plain "word").compile (.ofFrame [])).document) = false := by
    cbv
  have spacing : ((Prompt.plain "word").compile (.ofFrame [])).document.spacing = .filter := by cbv
  have loose : ((Prompt.plain "word").compile (.ofFrame [])).document.spacing ≠ .pre := by
    rw [spacing]
    decide
  obtain ⟨_, exactly, enough⟩ :=
    messages_eq_plain_iff (.plain "word") (.ofFrame []) silent textual visible
  exact ⟨silent, textual, visible, loose,
    exactly.mpr (enough loose (by cbv) (by cbv) (by cbv))⟩

/-- Two words that are filled in, with a blank between them. -/
def Prompt.twoTemplates : Prompt := .plain "\x7b\x7b 'a' \x7d\x7d \x7b\x7b 'b' \x7d\x7d"

/-- The blank between two words that are filled in is lost in a chat. -/
theorem messages_ne_plain_twoTemplates :
    let document := (Prompt.twoTemplates.compile (.ofFrame [])).document
    document.namesSpeaker = false ∧ document.hasAttachments = false ∧
      writePlain document = "a b" ∧ writeMessages document false = [⟨.human, .text "ab"⟩] ∧
      writeMessages document false ≠ [⟨.human, .text (writePlain document)⟩] := by
  have plain : writePlain (Prompt.twoTemplates.compile (.ofFrame [])).document = "a b" := by cbv
  have chat : writeMessages (Prompt.twoTemplates.compile (.ofFrame [])).document false =
      [⟨.human, .text "ab"⟩] := by cbv
  refine ⟨by cbv, by cbv, plain, chat, ?_⟩
  rw [chat, plain]
  intro same
  injection same with head
  injection head with speaker content
  injection content with text
  exact absurd text (by decide)

end PromptMarkup
