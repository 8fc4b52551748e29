/-
**The messages of a document as a partition of it.**

Units in a row of one speaker make a run. No unit is lost or said by anybody else, and no two runs
in a row could have been one. So the runs divide a document, and all that is in a unit is said by
the speaker of its run, unless somebody else is named in the unit, which is not looked for in blocks
that are laid out as a whole.

* `SpeakerRun.IsSound`, `Parted`: a run by itself, and a run behind another one;
* `addUnit_cases`: what one more unit does to the runs behind it;
* `units_addUnit`, `isSound_addUnit`, `isChain_addUnit`: what one more unit keeps;
* `units_speakerRuns`: the units of a document are those of its runs;
* `hasBareBlanks_presentDocument`: blank text of a document has nothing below it;
* `speakerRuns_partition`: the runs of a document divide it;
* `speakerRuns_attribution`: who says what is in a run.
-/

import Mathlib.Data.List.Forall2
import PromptMarkup.Proofs.Block.Positions
import PromptMarkup.Proofs.Output.SingleSpeaker
import PromptMarkup.Proofs.Output.SpeakerUnits

namespace PromptMarkup

/-! ### Runs -/

/-- The blocks of a run as units of its speaker. -/
def SpeakerRun.units (run : SpeakerRun) : List SpeakerUnit :=
  run.blocks.map fun block => ⟨run.speaker, block⟩

/-- A run has blocks, all of them in its range, and only one if a tool answers. -/
structure SpeakerRun.IsSound (run : SpeakerRun) : Prop where
  some : run.blocks ≠ []
  alone : run.speaker = .tool → ∃ block, run.blocks = [block]
  covers : ∀ block ∈ run.blocks, run.span.containsSpan block.span

/-- A run does not go on in the run behind it, unless both are answers of tools. -/
def Parted (first second : SpeakerRun) : Prop :=
  first.speaker = second.speaker → first.speaker = .tool

theorem containsSpan_self (span : Span) : span.containsSpan span := by
  simp [Span.containsSpan]

/-- The least range around two ranges holds all that either of them holds. -/
theorem containsSpan_cover {first second inner : Span}
    (inside : first.containsSpan inner ∨ second.containsSpan inner) :
    (first.cover second).containsSpan inner := by
  simp only [Span.containsSpan, Bool.and_eq_true, decide_eq_true_eq] at inside ⊢
  show min first.start second.start ≤ inner.start ∧ inner.stop ≤ max first.stop second.stop
  omega

/-! ### One more unit -/

/-- A unit by itself is a run. -/
def SpeakerUnit.alone (unit : SpeakerUnit) : SpeakerRun :=
  ⟨unit.speaker, [unit.block], unit.block.span⟩

/-- A run with one more block in front. -/
def SpeakerRun.join (run : SpeakerRun) (block : Block) : SpeakerRun :=
  ⟨run.speaker, block :: run.blocks, block.span.cover run.span⟩

section Steps

variable (unit : SpeakerUnit) {runs : List SpeakerRun}

/-- **What one more unit does**: it joins the first run, or it does not go on in it. -/
theorem addUnit_cases (run : SpeakerRun) (rest : List SpeakerRun) :
    (run.speaker = unit.speaker ∧ run.speaker ≠ .tool ∧
        addUnit unit (run :: rest) = run.join unit.block :: rest) ∨
      (Parted unit.alone run ∧ addUnit unit (run :: rest) = unit.alone :: run :: rest) := by
  by_cases joins : run.speaker = unit.speaker ∧ unit.speaker ≠ .tool
  · exact .inl ⟨joins.1, joins.1 ▸ joins.2, if_pos joins⟩
  · refine .inr ⟨fun same => ?_, if_neg joins⟩
    by_contra other
    exact joins ⟨same.symm, other⟩

/-- **One more unit is one more unit of the runs.** -/
theorem units_addUnit :
    (addUnit unit runs).flatMap SpeakerRun.units = unit :: runs.flatMap SpeakerRun.units := by
  cases runs with
  | nil => rfl
  | cons run rest =>
    obtain ⟨same, _, step⟩ | ⟨_, step⟩ := addUnit_cases unit run rest
    · simp [step, SpeakerRun.units, SpeakerRun.join, same]
    · simp [step, SpeakerRun.units, SpeakerUnit.alone]

theorem isSound_alone : unit.alone.IsSound :=
  ⟨List.cons_ne_nil _ _, fun _ => ⟨unit.block, rfl⟩,
    List.forall_mem_singleton.mpr (containsSpan_self _)⟩

theorem SpeakerRun.IsSound.join {run : SpeakerRun} (sound : run.IsSound)
    (other : run.speaker ≠ .tool) (block : Block) : (run.join block).IsSound := by
  refine ⟨List.cons_ne_nil _ _, fun tool => absurd tool other, ?_⟩
  refine List.forall_mem_cons.mpr ⟨?_, fun inner member => ?_⟩
  · exact containsSpan_cover (.inl (containsSpan_self _))
  · exact containsSpan_cover (.inr (sound.covers inner member))

theorem isSound_addUnit (sound : ∀ run ∈ runs, run.IsSound) :
    ∀ run ∈ addUnit unit runs, run.IsSound := by
  cases runs with
  | nil => exact List.forall_mem_singleton.mpr (isSound_alone unit)
  | cons run rest =>
    obtain ⟨here, later⟩ := List.forall_mem_cons.mp sound
    obtain ⟨_, other, step⟩ | ⟨_, step⟩ := addUnit_cases unit run rest
    · rw [step]
      exact List.forall_mem_cons.mpr ⟨here.join other unit.block, later⟩
    · rw [step]
      exact List.forall_mem_cons.mpr ⟨isSound_alone unit, sound⟩

theorem isChain_addUnit (chain : runs.IsChain Parted) : (addUnit unit runs).IsChain Parted := by
  cases runs with
  | nil => exact .singleton _
  | cons run rest =>
    obtain ⟨_, _, step⟩ | ⟨parted, step⟩ := addUnit_cases unit run rest
    · -- The run that the unit joins keeps its speaker.
      obtain ⟨next, later⟩ := List.isChain_cons.mp chain
      rw [step]
      exact List.isChain_cons.mpr ⟨next, later⟩
    · rw [step]
      exact List.isChain_cons_cons.mpr ⟨parted, chain⟩

end Steps

section Documents

variable (document : Block)

/-- **The units of a document are those of its runs**, in the same order. -/
theorem units_speakerRuns :
    (speakerRuns document false).flatMap SpeakerRun.units = units document := by
  show ((units document).foldr addUnit []).flatMap SpeakerRun.units = units document
  induction units document with
  | nil => rfl
  | cons unit rest ih => rw [List.foldr_cons, units_addUnit, ih]

theorem isSound_speakerRuns : ∀ run ∈ speakerRuns document false, run.IsSound := by
  show ∀ run ∈ (units document).foldr addUnit [], run.IsSound
  induction units document with
  | nil => exact List.forall_mem_nil _
  | cons unit rest ih => exact isSound_addUnit unit ih

/-- **No two runs in a row could have been one.** -/
theorem isChain_speakerRuns : (speakerRuns document false).IsChain Parted := by
  show ((units document).foldr addUnit []).IsChain Parted
  induction units document with
  | nil => exact .nil
  | cons unit rest ih => exact isChain_addUnit unit ih

/-- The blocks of the runs are those of the units. -/
theorem blocks_speakerRuns :
    (speakerRuns document false).flatMap SpeakerRun.blocks =
      (units document).map SpeakerUnit.block := by
  rw [← units_speakerRuns, List.map_flatMap]
  congr 1
  funext run
  simp [SpeakerRun.units, Function.comp_def]

/-- **The blocks of the runs stand at the positions of the units.** -/
theorem blocks_at_positions :
    ((speakerRuns document false).flatMap SpeakerRun.blocks).map some =
      (unitPositionsFrom 0 document.children).map document.at? := by
  have stand := congrArg (List.map (Option.map SpeakerUnit.block)) (units_eq_positions document)
  rw [List.map_map, List.map_map] at stand
  rw [blocks_speakerRuns, List.map_map]
  refine Eq.trans stand (List.map_congr_left fun position _ => ?_)
  simp [Block.unitAt?, Function.comp_def]

end Documents

/-- **In a document**, blank text has nothing below it. -/
theorem hasBareBlanks_presentDocument (root : ComponentNode) :
    (presentDocument root).HasBareBlanks := fun inner within blank =>
  hasBareLeaves_presentDocument root inner within (BlockKind.isLeaf_of_isBlankText blank)

/-! ### The partition -/

/-- A kind that is content by itself: text that is not blank, a table, data, media, or the call of a
tool. -/
def BlockKind.isContent : BlockKind → Bool
  | text value _ => !Text.isBlankText value
  | table _ _ => true
  | data _ => true
  | media _ => true
  | toolRequest _ _ _ => true
  | _ => false

/-- What is content by itself is neither blank text nor opened. -/
theorem not_opened_of_isContent {block : Block} (content : block.kind.isContent) :
    block.isBlankText = false ∧ block.isOpened = false := by
  obtain ⟨kind, presentation, speaker, spacing, children, span⟩ := block
  cases kind <;>
    simp_all [BlockKind.isContent, Block.isBlankText, BlockKind.isBlankText, Block.isOpened,
      BlockKind.isContainer]

/-- A position below the top is below one of the units. -/
theorem exists_unitPosition_document {document leaf : Block} {position : Position}
    (kind : document.kind = .document) (bare : document.HasBareBlanks)
    (found : document.at? position = some leaf) (content : leaf.kind.isContent) :
    ∃ above ∈ unitPositionsFrom 0 document.children, above <+: position := by
  cases position with
  | nil =>
    obtain rfl : document = leaf := by simpa using found
    rw [kind] at content
    cases content
  | cons index rest =>
    obtain ⟨child, member, below⟩ := Option.bind_eq_some_iff.mp found
    have inside : child.HasBareBlanks := fun inner within =>
      bare inner (Block.mem_walk_of_child (List.mem_of_getElem? member) within)
    obtain ⟨shown, closed⟩ := not_opened_of_isContent content
    obtain ⟨above, among, within⟩ := exists_unitPosition inside below shown closed
    refine ⟨index :: above, ?_, List.cons_prefix_cons.mpr ⟨rfl, within⟩⟩
    exact mem_unitPositionsFrom.mpr ⟨index, child, above, member, among, by rw [Nat.zero_add]⟩

/-- **The runs divide a document.** The blocks of the runs stand in the order of the document, none
above another one, and all that is content by itself is in just one of them. A run has blocks, all
of them in its range; the answer of a tool is a run of its own, and other runs in a row have
different speakers. A single message has the same blocks. -/
theorem speakerRuns_partition (root : ComponentNode) :
    let document := presentDocument root
    let runs := speakerRuns document false
    (∃ positions : List Position,
      positions.map document.at? = (runs.flatMap SpeakerRun.blocks).map some ∧
        positions.Pairwise Precedes ∧
        ∀ position leaf, document.at? position = some leaf → leaf.kind.isContent →
          ∃! above, above ∈ positions ∧ above <+: position) ∧
      (∀ run ∈ runs, run.IsSound) ∧ runs.IsChain Parted ∧
      ∃ run, speakerRuns document true = [run] ∧ run.blocks = runs.flatMap SpeakerRun.blocks := by
  intro document runs
  have apart := pairwise_unitPositionsFrom 0 document.children
  refine ⟨⟨unitPositionsFrom 0 document.children, (blocks_at_positions document).symm, apart, ?_⟩,
    isSound_speakerRuns document, isChain_speakerRuns document, singleRun document, rfl,
    (blocks_speakerRuns document).symm⟩
  intro position leaf found content
  obtain ⟨above, among, within⟩ := exists_unitPosition_document (kind_presentDocument root)
    (hasBareBlanks_presentDocument root) found content
  exact ⟨above, ⟨among, within⟩, fun other ⟨listed, higher⟩ =>
    eq_of_prefix apart listed among higher within⟩

/-! ### Attribution -/

/-- A unit stands at a position of a document, and all that is in it is said by its speaker as far
as nobody else is named on the way down from there. Somebody else may be named only in a block with
a speaker of its own, or in one that is not opened. -/
structure Attributes (document : Block) (position : Position) (unit : SpeakerUnit) : Prop where
  found : document.at? position = some unit.block
  inside : ∀ rest inner, unit.block.at? rest = some inner →
    (∀ above, above ≠ [] → above <+: rest → (unit.block.at? above).bind Block.speaker = none) →
      (document.nearestSpeaker? (position ++ rest)).getD .human = unit.speaker
  closed : unit.block.children.any Block.namesSpeaker →
    unit.block.speaker.isSome ∨ unit.block.kind.isContainer = false

/-- A unit that stands at a position says all that is in it. -/
theorem attributes_of_unitAt? {document : Block} {position : Position} {unit : SpeakerUnit}
    (stands : document.unitAt? .human position = some unit)
    (closed : unit.block.isOpened = false) : Attributes document position unit := by
  obtain ⟨block, found, rfl⟩ := Option.map_eq_some_iff.mp stands
  refine ⟨found, fun rest inner _ silent => ?_, fun named => ?_⟩
  · rw [Block.nearestSpeaker?_append found silent]
  · simp only [Block.isOpened, named, Bool.and_true] at closed
    cases own : block.speaker with
    | none => exact .inr (by simpa [own] using closed)
    | some speaker => exact .inl rfl

theorem forall₂_attributes {document : Block} {units : List SpeakerUnit} {positions : List Position}
    (stand : units.map some = positions.map (document.unitAt? .human))
    (closed : ∀ unit ∈ units, unit.block.isOpened = false) :
    List.Forall₂ (Attributes document) positions units := by
  induction units generalizing positions with
  | nil =>
    obtain rfl : positions = [] := by simpa using stand.symm
    exact .nil
  | cons unit rest ih =>
    obtain ⟨here, later⟩ := List.forall_mem_cons.mp closed
    cases positions with
    | nil => cases stand
    | cons position others =>
      obtain ⟨first, behind⟩ := List.cons.inj stand
      exact .cons (attributes_of_unitAt? first.symm here) (ih behind later)

/-- **Who says what is in a run.** The blocks of the runs stand at positions of the document, in
order and none above another one. What is in a block is said by the speaker of its run, unless
somebody else is named nearer to it than the block itself. -/
theorem speakerRuns_attribution (document : Block) :
    ∃ positions : List Position, positions.Pairwise Precedes ∧
      List.Forall₂ (Attributes document) positions
        ((speakerRuns document false).flatMap SpeakerRun.units) := by
  refine ⟨unitPositionsFrom 0 document.children, pairwise_unitPositionsFrom 0 _, ?_⟩
  rw [units_speakerRuns]
  exact forall₂_attributes (units_eq_positions document) (unitsOfAll_not_opened _ _)

/-- A list that nobody is named for, with an item that a model says. -/
def Prompt.spokenItem : Prompt := .plain "<list><item speaker=\"ai\">x</item></list>"

/-- The only run of the document is the list, said by a human; the item in it is not. -/
theorem speakerRuns_spokenItem :
    let document := (Prompt.spokenItem.compile (.ofFrame [])).document
    let runs := speakerRuns document false
    runs.map SpeakerRun.speaker = [.human] ∧
      (runs.flatMap SpeakerRun.blocks).map some = [document.at? [0]] ∧
      (document.at? [0, 0]).isSome ∧ document.nearestSpeaker? [0, 0] = some .ai := by
  intro document runs
  have found : (runs.map SpeakerRun.speaker, unitPositionsFrom 0 document.children,
      (document.at? [0, 0]).isSome, document.nearestSpeaker? [0, 0]) =
      ([.human], [[0]], true, some .ai) := by decide +kernel
  simp only [Prod.mk.injEq] at found
  obtain ⟨speakers, positions, inside, nearest⟩ := found
  refine ⟨speakers, ?_, inside, nearest⟩
  rw [blocks_at_positions, positions]
  rfl

end PromptMarkup
