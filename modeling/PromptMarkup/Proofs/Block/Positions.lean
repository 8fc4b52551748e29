/-
**Positions in a tree of blocks.**

A position is the way to a block: the number of a child at each step from the top down. The same
block may stand at several positions, so that what is above a block, and which of two blocks comes
first, are questions about positions.

Some kinds of blocks show nothing that is below them: text, tables, data, media and calls of tools.
The blocks of a component of such a kind have nothing below them in the first place.

* `Position`, `Block.at?`: a position, and the block that stands there;
* `Precedes`: one position comes before another one, and neither is above the other;
* `Block.nearestSpeaker?`: the speaker named at a position, or else the nearest one above it;
* `nearestSpeaker?_append`: who speaks below a position where nobody else is named;
* `BlockKind.isLeaf`, `Block.HasBareLeaves`: the kinds that show nothing, and blocks where they are
  leaves;
* `showsChildren_of_isLeaf`: only a component that hides its children becomes a leaf;
* `hasBareLeaves_presentDocument`: the leaves of a document have nothing below them.
-/

import Mathlib.Data.List.Infix
import Mathlib.Data.List.Pairwise
import PromptMarkup.Block.Basic
import PromptMarkup.Block.Presenting

namespace PromptMarkup

/-- The way from the top of a tree to a block, by the number of a child at each step. -/
abbrev Position := List Nat

/-! ### Order -/

/-- The ways to two positions part somewhere, and the first of them goes on to an earlier child. -/
inductive Precedes : Position → Position → Prop
  | parts {index other : Nat} (less : index < other) (first second : Position) :
    Precedes (index :: first) (other :: second)
  | deeper (index : Nat) {first second : Position} :
    Precedes first second → Precedes (index :: first) (index :: second)

section Order

variable {first second position : Position}

/-- A position is not above one that it precedes. -/
theorem Precedes.not_prefix (before : Precedes first second) : ¬ first <+: second := by
  induction before with
  | parts less first second =>
    intro above
    exact less.ne (List.cons_prefix_cons.mp above).1
  | deeper index _ ih => exact fun above => ih (List.cons_prefix_cons.mp above).2

/-- A position is not below one that it precedes. -/
theorem Precedes.not_prefix_of (before : Precedes first second) : ¬ second <+: first := by
  induction before with
  | parts less first second =>
    intro above
    exact less.ne (List.cons_prefix_cons.mp above).1.symm
  | deeper index _ ih => exact fun above => ih (List.cons_prefix_cons.mp above).2

/-- Of positions of which none is above another one, at most one is above any position. -/
theorem eq_of_prefix {positions : List Position} (apart : positions.Pairwise Precedes)
    (left : first ∈ positions) (right : second ∈ positions) (above : first <+: position)
    (other : second <+: position) : first = second := by
  by_contra different
  have symmetric : Std.Symm fun one two : Position => ¬ one <+: two ∧ ¬ two <+: one :=
    ⟨fun _ _ => And.symm⟩
  have nested : positions.Pairwise fun one two => ¬ one <+: two ∧ ¬ two <+: one :=
    apart.imp fun before => ⟨before.not_prefix, before.not_prefix_of⟩
  obtain ⟨notAbove, notBelow⟩ := nested.forall left right different
  rcases List.prefix_or_prefix_of_prefix above other with within | within
  · exact notAbove within
  · exact notBelow within

end Order

namespace Block

/-! ### Blocks at positions -/

/-- The block at a position. -/
def at? (top : Block) : Position → Option Block
  | [] => some top
  | index :: rest => top.children[index]?.bind fun child => child.at? rest

@[simp] theorem at?_nil (top : Block) : top.at? [] = some top := rfl

@[simp] theorem at?_cons (top : Block) (index : Nat) (rest : Position) :
    top.at? (index :: rest) = top.children[index]?.bind fun child => child.at? rest := rfl

variable {top block : Block}

theorem mem_walk_self (top : Block) : top ∈ top.walk := by
  cases top
  exact List.mem_cons_self

theorem mem_walkAll {blocks : List Block} {inner : Block} :
    inner ∈ walkAll blocks ↔ ∃ block ∈ blocks, inner ∈ block.walk := by
  induction blocks with
  | nil => simp [walkAll]
  | cons first rest ih => simp [walkAll, ih]

/-- What is below a child is below the block. -/
theorem mem_walk_of_child {child inner : Block} (member : child ∈ top.children)
    (inside : inner ∈ child.walk) : inner ∈ top.walk := by
  cases top
  exact List.mem_cons_of_mem _ (mem_walkAll.mpr ⟨child, member, inside⟩)

/-! ### Speakers -/

/-- The speaker that the block at a position names, or else the nearest block above it that names
one. -/
def nearestSpeaker? (top : Block) : Position → Option Speaker
  | [] => top.speaker
  | index :: rest =>
    (top.children[index]?.bind fun child => child.nearestSpeaker? rest).or top.speaker

/-- On the way to a position nobody is named. -/
def IsSilentAlong (top : Block) (position : Position) : Prop :=
  ∀ above, above <+: position → (top.at? above).bind Block.speaker = none

theorem IsSilentAlong.child {index : Nat} {rest : Position} {child : Block}
    (silent : top.IsSilentAlong (index :: rest)) (found : top.children[index]? = some child) :
    child.IsSilentAlong rest := by
  intro above within
  simpa [found] using silent (index :: above) (List.cons_prefix_cons.mpr ⟨rfl, within⟩)

theorem IsSilentAlong.nearestSpeaker? {position : Position}
    (silent : top.IsSilentAlong position) : top.nearestSpeaker? position = none := by
  have here : top.speaker = none := by simpa using silent [] List.nil_prefix
  induction position generalizing top with
  | nil => exact here
  | cons index rest ih =>
    unfold Block.nearestSpeaker?
    cases found : top.children[index]? with
    | none => simpa using here
    | some child =>
      have inside := silent.child found
      have quiet : child.speaker = none := by simpa using inside [] List.nil_prefix
      simp [ih inside quiet, here]

/-- **Below a position where nobody else is named**, the speaker is the one that speaks there. -/
theorem nearestSpeaker?_append {position rest : Position} (found : top.at? position = some block)
    (silent : ∀ above, above ≠ [] → above <+: rest → (block.at? above).bind Block.speaker = none) :
    top.nearestSpeaker? (position ++ rest) = top.nearestSpeaker? position := by
  induction position generalizing top with
  | nil =>
    obtain rfl : top = block := by simpa using found
    cases rest with
    | nil => rfl
    | cons index rest =>
      show (top.children[index]?.bind fun child => child.nearestSpeaker? rest).or top.speaker = _
      cases inside : top.children[index]? with
      | none => rfl
      | some child =>
        have quiet : child.IsSilentAlong rest := by
          intro above within
          have below := silent (index :: above) (List.cons_ne_nil _ _)
            (List.cons_prefix_cons.mpr ⟨rfl, within⟩)
          simpa [inside] using below
        simp [quiet.nearestSpeaker?, Block.nearestSpeaker?]
  | cons index position ih =>
    cases inside : top.children[index]? with
    | none => simp [inside] at found
    | some child =>
      have below : child.at? position = some block := by simpa [inside] using found
      simp only [List.cons_append, Block.nearestSpeaker?, inside, Option.bind_some, ih below]

end Block

/-! ### Leaves -/

/-- A kind that shows nothing of what is below it. -/
def BlockKind.isLeaf : BlockKind → Bool
  | text _ _ => true
  | table _ _ => true
  | data _ => true
  | media _ => true
  | toolRequest _ _ _ => true
  | _ => false

theorem BlockKind.isLeaf_of_isBlankText {kind : BlockKind} (blank : kind.isBlankText) :
    kind.isLeaf := by
  cases kind <;> first | rfl | cases blank

/-- Leaves have nothing below them. -/
def Block.HasBareLeaves (block : Block) : Prop :=
  ∀ inner ∈ block.walk, inner.kind.isLeaf → inner.children = []

section Leaves

variable {block : Block}

theorem Block.HasBareLeaves.intro (here : block.kind.isLeaf → block.children = [])
    (inside : ∀ child ∈ block.children, child.HasBareLeaves) : block.HasBareLeaves := by
  intro inner member
  obtain ⟨kind, presentation, speaker, spacing, children, span⟩ := block
  rcases List.mem_cons.mp member with rfl | below
  · exact here
  · obtain ⟨child, among, within⟩ := Block.mem_walkAll.mp below
    exact inside child among inner within

theorem Block.HasBareLeaves.here (bare : block.HasBareLeaves) (leaf : block.kind.isLeaf) :
    block.children = [] :=
  bare block block.mem_walk_self leaf

theorem Block.HasBareLeaves.child (bare : block.HasBareLeaves) {child : Block}
    (member : child ∈ block.children) : child.HasBareLeaves :=
  fun inner within => bare inner (Block.mem_walk_of_child member within)

theorem Block.HasBareLeaves.asItem (bare : block.HasBareLeaves) (inherited : Inherited)
    (span : Span) : (block.asItem inherited span).HasBareLeaves := by
  unfold Block.asItem
  split
  · exact bare
  · refine .intro (fun leaf => ?_) (List.forall_mem_singleton.mpr bare)
    cases leaf

end Leaves

/-! ### Components -/

section Presented

variable {node : ComponentNode} {inherited : Inherited} {children : List Block}

/-- A component is presented as a leaf only if its children are not shown. -/
theorem showsChildren_of_isLeaf (leaf : (node.blockKind inherited children).isLeaf) :
    node.component.kind.showsChildren = false := by
  have captioned : node.captionedKind.isLeaf = false := by
    unfold ComponentNode.captionedKind
    split <;> rfl
  have generic : (ComponentNode.genericKind children).isLeaf = false := by
    unfold ComponentNode.genericKind
    split <;> rfl
  unfold ComponentNode.blockKind at leaf
  cases kind : node.component.kind <;> simp only [kind] at leaf
  case image | audio | table | object | toolRequest => rfl
  case captionedParagraph | intention => simp [captioned] at leaf
  all_goals first | cases leaf | exact Bool.noConfusion (generic.symm.trans leaf)

theorem hasBareLeaves_arrangeChildren (node : ComponentNode) (inherited : Inherited)
    (bare : ∀ child ∈ children, child.HasBareLeaves) :
    ∀ child ∈ arrangeChildren node inherited children, child.HasBareLeaves := by
  unfold arrangeChildren
  split
  · intro child member
    obtain ⟨inner, among, rfl⟩ := List.mem_map.mp member
    exact (bare inner (List.mem_of_mem_filter among)).asItem inherited node.span
  · exact bare

mutual

/-- **In the block of a component**, leaves have nothing below them. -/
theorem ComponentNode.hasBareLeaves (around : Inherited) (node : ComponentNode) :
    ∀ block ∈ node.blocks around, block.HasBareLeaves := by
  obtain ⟨component, tag, props, children, span⟩ := node
  rw [ComponentNode.blocks]
  split
  · exact List.forall_mem_nil _
  · refine List.forall_mem_singleton.mpr (.intro (fun leaf => ?_) ?_)
    · have hidden : component.kind.showsChildren = false := showsChildren_of_isLeaf leaf
      simp [hidden, arrangeChildren, listItems]
    · refine hasBareLeaves_arrangeChildren _ _ ?_
      split
      · exact hasBareLeaves_childBlocks _ children
      · exact List.forall_mem_nil _

theorem hasBareLeaves_childBlocks (around : Inherited) (children : List ComponentChild) :
    ∀ block ∈ childBlocks around children, block.HasBareLeaves :=
  match children with
  | [] => List.forall_mem_nil _
  | .node node :: rest =>
    List.forall_mem_append.mpr ⟨node.hasBareLeaves around, hasBareLeaves_childBlocks around rest⟩
  | .text chunk :: rest => by
    refine List.forall_mem_append.mpr ⟨?_, hasBareLeaves_childBlocks around rest⟩
    exact List.forall_mem_singleton.mpr (.intro (fun _ => rfl) (List.forall_mem_nil _))

end

/-- **The leaves of a document have nothing below them.** -/
theorem hasBareLeaves_presentDocument (root : ComponentNode) :
    (presentDocument root).HasBareLeaves := by
  have bare := root.hasBareLeaves .standard
  have wrapped : ∀ children : List Block, (∀ child ∈ children, child.HasBareLeaves) →
      (Block.mk .document .markdown none .filter children root.span).HasBareLeaves :=
    fun children inside => .intro (fun leaf => by cases leaf) inside
  unfold presentDocument
  simp only
  split
  next block found =>
    rw [found] at bare
    split
    · exact bare block List.mem_cons_self
    · exact wrapped [block] bare
  next => exact wrapped _ bare

end Presented

end PromptMarkup
