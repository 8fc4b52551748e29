/-
**Speakers of a document.**

A document falls apart into units that each have one speaker, and units in a row of the same
speaker make a message.

* `units`: the blocks of a document that have one speaker each;
* `SpeakerRun`, `speakerRuns`: the messages as rows of blocks.
-/

import PromptMarkup.Block.Basic

namespace PromptMarkup

/-- Somebody is named as the speaker of a block or of one below it. -/
def Block.namesSpeaker (block : Block) : Bool :=
  block.walk.any fun inner => inner.speaker.isSome

/-- A kind that is opened when speakers are named inside. -/
def BlockKind.isContainer : BlockKind → Bool
  | document => true
  | paragraph => true
  | division => true
  | _ => false

/-- A block with its speaker. -/
structure SpeakerUnit where
  speaker : Speaker
  block : Block

mutual

/-- The units of a block inside content of a speaker. Blank text has no unit. -/
def unitsOf (around : Speaker) : Block → List SpeakerUnit
  | ⟨kind, presentation, speaker, spacing, children, span⟩ =>
    let block : Block := ⟨kind, presentation, speaker, spacing, children, span⟩
    if kind.isBlankText then []
    else
      match speaker with
      | some own => [⟨own, block⟩]
      | none =>
        if kind.isContainer && children.any Block.namesSpeaker then unitsOfAll around children
        else [⟨around, block⟩]

/-- The units of some blocks. -/
def unitsOfAll (around : Speaker) : List Block → List SpeakerUnit
  | [] => []
  | block :: rest => unitsOf around block ++ unitsOfAll around rest

end

/-- The speaker of a document where nobody else is named. -/
def rootSpeaker (document : Block) : Speaker := document.speaker.getD .human

/-- The units of a document. -/
def units (document : Block) : List SpeakerUnit :=
  unitsOfAll (rootSpeaker document) document.children

/-! ## Runs -/

/-- Blocks of one speaker in a row, with the range around them. -/
structure SpeakerRun where
  speaker : Speaker
  blocks : List Block
  span : Span

/-- One more unit in front of some runs. It joins the first run if it has the same speaker, except
that each answer of a tool stands alone. -/
def addUnit (unit : SpeakerUnit) : List SpeakerRun → List SpeakerRun
  | [] => [⟨unit.speaker, [unit.block], unit.block.span⟩]
  | run :: rest =>
    if run.speaker = unit.speaker ∧ unit.speaker ≠ .tool then
      ⟨run.speaker, unit.block :: run.blocks, unit.block.span.cover run.span⟩ :: rest
    else ⟨unit.speaker, [unit.block], unit.block.span⟩ :: run :: rest

/-- The runs of a document as a single message: the first speaker named at a unit speaks. -/
def singleRun (document : Block) : SpeakerRun :=
  let units := units document
  let named := units.find? fun unit => unit.block.speaker.isSome
  let speaker := (named.map SpeakerUnit.speaker).getD (rootSpeaker document)
  ⟨speaker, units.map SpeakerUnit.block, document.span⟩

/-- The runs of a document. -/
def speakerRuns (document : Block) (single : Bool) : List SpeakerRun :=
  if single then [singleRun document] else (units document).foldr addUnit []

end PromptMarkup
