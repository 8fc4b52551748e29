/-
**The units of a document and their positions.**

The units of a document are blocks of it: those that are reached from the top by way of opened
blocks only. So they are known by their positions, at which they are said by the speaker that is
named nearest.

* `Block.isOpened`: a block that is no unit, since somebody is named below it;
* `unitsOf_closed`, `unitsOf_opened`: the units of a single block;
* `Block.unitPositions`, `unitsOf_eq_positions`: the positions of the units, and the units there;
* `pairwise_unitPositions`: no unit is above another one, and all are in order;
* `exists_unitPosition`: everything but blank text and opened blocks is in a unit.
-/

import PromptMarkup.Output.Speakers
import PromptMarkup.Proofs.Block.Positions

namespace PromptMarkup

/-! ### Single blocks -/

/-- A block that is opened into the units below it: it names nobody, but something in it does. -/
def Block.isOpened (block : Block) : Bool :=
  block.speaker.isNone && (block.kind.isContainer && block.children.any Block.namesSpeaker)

section Units

variable (around : Speaker) {block : Block}

theorem unitsOf_blank (blank : block.isBlankText) : unitsOf around block = [] := by
  obtain ⟨kind, presentation, speaker, spacing, children, span⟩ := block
  exact if_pos blank

/-- Blank text is not opened. -/
theorem isBlankText_of_isOpened (opened : block.isOpened) : block.isBlankText = false := by
  obtain ⟨kind, presentation, speaker, spacing, children, span⟩ := block
  cases kind with
  | text value exact => simp [Block.isOpened, BlockKind.isContainer] at opened
  | _ => rfl

/-- **The units of an opened block** are those of its children. -/
theorem unitsOf_opened (opened : block.isOpened) :
    unitsOf around block = unitsOfAll around block.children := by
  have shown : ¬ block.isBlankText := by simp [isBlankText_of_isOpened opened]
  obtain ⟨kind, presentation, speaker, spacing, children, span⟩ := block
  cases speaker with
  | some own => simp [Block.isOpened] at opened
  | none =>
    have inside : (kind.isContainer && children.any Block.namesSpeaker) = true := by
      simpa [Block.isOpened] using opened
    exact (if_neg shown).trans (if_pos inside)

/-- **Any other block is one unit** of its own speaker, or else of the one around it. -/
theorem unitsOf_closed (shown : block.isBlankText = false) (closed : block.isOpened = false) :
    unitsOf around block = [⟨block.speaker.getD around, block⟩] := by
  have shown : ¬ block.isBlankText := by simp [shown]
  obtain ⟨kind, presentation, speaker, spacing, children, span⟩ := block
  cases speaker with
  | some own => exact if_neg shown
  | none =>
    have inside : ¬ (kind.isContainer && children.any Block.namesSpeaker) = true := by
      simpa [Block.isOpened] using closed
    exact (if_neg shown).trans (if_neg inside)

end Units

/-! ### Positions -/

mutual

/-- The positions of the units of a block, seen from the block. -/
def Block.unitPositions : Block → List Position
  | ⟨kind, presentation, speaker, spacing, children, span⟩ =>
    let block : Block := ⟨kind, presentation, speaker, spacing, children, span⟩
    if block.isBlankText then []
    else if block.isOpened then unitPositionsFrom 0 children
    else [[]]

/-- The positions of the units of some children; the first child has the number `index`. -/
def unitPositionsFrom (index : Nat) : List Block → List Position
  | [] => []
  | block :: rest => block.unitPositions.map (index :: ·) ++ unitPositionsFrom (index + 1) rest

end

theorem unitPositions_eq (block : Block) :
    block.unitPositions = if block.isBlankText then []
      else if block.isOpened then unitPositionsFrom 0 block.children else [[]] := by
  cases block
  rfl

theorem mem_unitPositionsFrom {index : Nat} {blocks : List Block} {position : Position} :
    position ∈ unitPositionsFrom index blocks ↔ ∃ number block rest,
      blocks[number]? = some block ∧ rest ∈ block.unitPositions ∧
        position = (index + number) :: rest := by
  induction blocks generalizing index with
  | nil => simp [unitPositionsFrom]
  | cons first later ih =>
    simp only [unitPositionsFrom, List.mem_append, List.mem_map, ih]
    constructor
    · rintro (⟨rest, inside, rfl⟩ | ⟨number, block, rest, found, inside, rfl⟩)
      · exact ⟨0, first, rest, rfl, inside, rfl⟩
      · exact ⟨number + 1, block, rest, found, inside, by rw [Nat.add_assoc, Nat.add_comm 1]⟩
    · rintro ⟨number, block, rest, found, inside, rfl⟩
      cases number with
      | zero =>
        obtain rfl : first = block := by simpa using found
        exact .inl ⟨rest, inside, rfl⟩
      | succ number =>
        exact .inr ⟨number, block, rest, found, inside, by rw [Nat.add_assoc, Nat.add_comm 1]⟩

/-! ### Order -/

mutual

/-- **No unit is above another one**, and all are in the order of the document. -/
theorem pairwise_unitPositions (block : Block) : block.unitPositions.Pairwise Precedes := by
  obtain ⟨kind, presentation, speaker, spacing, children, span⟩ := block
  rw [unitPositions_eq]
  split
  · exact .nil
  · split
    · exact pairwise_unitPositionsFrom 0 children
    · exact List.pairwise_singleton _ _

theorem pairwise_unitPositionsFrom (index : Nat) (blocks : List Block) :
    (unitPositionsFrom index blocks).Pairwise Precedes := by
  cases blocks with
  | nil => exact .nil
  | cons first later =>
    refine List.pairwise_append.mpr ⟨List.pairwise_map.mpr ?_, ?_, ?_⟩
    · exact (pairwise_unitPositions first).imp fun before => .deeper index before
    · exact pairwise_unitPositionsFrom (index + 1) later
    · intro one left two right
      obtain ⟨rest, _, rfl⟩ := List.mem_map.mp left
      obtain ⟨number, block, other, _, _, rfl⟩ := mem_unitPositionsFrom.mp right
      exact .parts (by omega) rest other

end

/-! ### Units at positions -/

/-- The block at a position as a unit of the speaker that is named nearest. -/
def Block.unitAt? (around : Speaker) (top : Block) (position : Position) : Option SpeakerUnit :=
  (top.at? position).map fun block => ⟨(top.nearestSpeaker? position).getD around, block⟩

/-- The block at a position among some children, as a unit. -/
def unitAmong? (around : Speaker) (blocks : List Block) : Position → Option SpeakerUnit
  | [] => none
  | index :: rest => blocks[index]?.bind fun block => block.unitAt? around rest

theorem unitAt?_cons (around : Speaker) (top : Block) (index : Nat) (rest : Position) :
    top.unitAt? around (index :: rest) =
      unitAmong? (top.speaker.getD around) top.children (index :: rest) := by
  unfold unitAmong? Block.unitAt?
  cases found : top.children[index]? with
  | none => simp [found]
  | some child =>
    cases named : child.nearestSpeaker? rest <;> simp [found, Block.nearestSpeaker?, named]

/-- What stands among the children of a block stands in it. -/
theorem unitAt?_of_mem {around : Speaker} {top : Block} {index : Nat} {blocks : List Block}
    {position : Position} (member : position ∈ unitPositionsFrom index blocks) :
    top.unitAt? around position =
      unitAmong? (top.speaker.getD around) top.children position := by
  obtain ⟨number, block, rest, _, _, rfl⟩ := mem_unitPositionsFrom.mp member
  exact unitAt?_cons around top _ rest

mutual

/-- **The units of a block stand at their positions.** -/
theorem unitsOf_eq_positions (around : Speaker) (block : Block) :
    (unitsOf around block).map some = block.unitPositions.map (block.unitAt? around) := by
  obtain ⟨kind, presentation, speaker, spacing, children, span⟩ := block
  rw [unitPositions_eq]
  split
  next blank => rw [unitsOf_blank around blank, List.map_nil, List.map_nil]
  next shown =>
    split
    next opened =>
      have nobody : speaker = none := by
        cases speaker with
        | none => rfl
        | some own => simp [Block.isOpened] at opened
      rw [unitsOf_opened around opened, unitsOfAll_eq_positions around [] children]
      refine List.map_congr_left fun position member => ?_
      rw [unitAt?_of_mem member, nobody]
      rfl
    next closed =>
      rw [unitsOf_closed around (Bool.eq_false_iff.mpr shown) (Bool.eq_false_iff.mpr closed)]
      rfl

theorem unitsOfAll_eq_positions (around : Speaker) (front blocks : List Block) :
    (unitsOfAll around blocks).map some =
      (unitPositionsFrom front.length blocks).map (unitAmong? around (front ++ blocks)) := by
  cases blocks with
  | nil => rfl
  | cons first later =>
    have rest := unitsOfAll_eq_positions around (front ++ [first]) later
    rw [List.append_assoc, List.singleton_append, List.length_append, List.length_singleton] at rest
    unfold unitsOfAll unitPositionsFrom
    rw [List.map_append, List.map_append, rest, unitsOf_eq_positions around first, List.map_map]
    refine congrArg (· ++ _) (List.map_congr_left fun position _ => ?_)
    simp [unitAmong?]

end

/-- **The units of a document stand at their positions**, and each is said by the speaker that is
named nearest there, or by a human. -/
theorem units_eq_positions (document : Block) :
    (units document).map some =
      (unitPositionsFrom 0 document.children).map (document.unitAt? .human) := by
  have stand := unitsOfAll_eq_positions (rootSpeaker document) [] document.children
  refine stand.trans (List.map_congr_left fun position member => ?_)
  rw [unitAt?_of_mem member]
  rfl

/-! ### What is in a unit -/

mutual

/-- No unit is a block that is opened. -/
theorem unitsOf_not_opened (around : Speaker) (block : Block) :
    ∀ unit ∈ unitsOf around block, unit.block.isOpened = false := by
  obtain ⟨kind, presentation, speaker, spacing, children, span⟩ := block
  by_cases blank : (Block.mk kind presentation speaker spacing children span).isBlankText
  · rw [unitsOf_blank around blank]
    exact List.forall_mem_nil _
  · by_cases opened : (Block.mk kind presentation speaker spacing children span).isOpened
    · rw [unitsOf_opened around opened]
      exact unitsOfAll_not_opened around children
    · have closed := Bool.eq_false_iff.mpr opened
      rw [unitsOf_closed around (Bool.eq_false_iff.mpr blank) closed]
      exact List.forall_mem_singleton.mpr closed

theorem unitsOfAll_not_opened (around : Speaker) (blocks : List Block) :
    ∀ unit ∈ unitsOfAll around blocks, unit.block.isOpened = false := by
  cases blocks with
  | nil => exact List.forall_mem_nil _
  | cons first later =>
    exact List.forall_mem_append.mpr
      ⟨unitsOf_not_opened around first, unitsOfAll_not_opened around later⟩

end

/-- In a block all blank text is without children. -/
def Block.HasBareBlanks (block : Block) : Prop :=
  ∀ inner ∈ block.walk, inner.isBlankText → inner.children = []

/-- **Everything is in a unit** but blank text and the blocks that are opened. -/
theorem exists_unitPosition {block leaf : Block} {position : Position}
    (bare : block.HasBareBlanks) (found : block.at? position = some leaf)
    (shown : leaf.isBlankText = false) (closed : leaf.isOpened = false) :
    ∃ above ∈ block.unitPositions, above <+: position := by
  induction position generalizing block with
  | nil =>
    obtain rfl : block = leaf := by simpa using found
    refine ⟨[], ?_, List.prefix_rfl⟩
    simp [unitPositions_eq, shown, closed]
  | cons index rest ih =>
    obtain ⟨child, member, below⟩ := Option.bind_eq_some_iff.mp found
    by_cases blank : block.isBlankText
    · -- A text that is blank has no children, so that nothing is found in it.
      rw [bare block (Block.mem_walk_self block) blank] at member
      cases member
    · by_cases opened : block.isOpened
      · have inside : child.HasBareBlanks := fun inner within =>
          bare inner (Block.mem_walk_of_child (List.mem_of_getElem? member) within)
        obtain ⟨above, among, within⟩ := ih inside below
        refine ⟨index :: above, ?_, List.cons_prefix_cons.mpr ⟨rfl, within⟩⟩
        rw [unitPositions_eq, if_neg blank, if_pos opened]
        exact mem_unitPositionsFrom.mpr ⟨index, child, above, member, among, by rw [Nat.zero_add]⟩
      · exact ⟨[], by simp [unitPositions_eq, blank, opened], List.nil_prefix⟩

end PromptMarkup
