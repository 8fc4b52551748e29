/-
**What becomes of components.**

A component leaves one block or none. The block has its range; of what is below the component, some
goes away, some stays, and what a list contains besides items is put into items with the range of
their content.

* `Lowered`: what may become of some regions;
* `Region.Becomes`, `ComponentChild.Presents`: the block that a child of a component leaves;
* `lowered_childBlocks`, `lowered_listItems`: the blocks of children, in a list and elsewhere;
* `becomes_component`: what a component leaves, by the structure of what is below it;
* `becomes_presentDocument`: the block of a whole document;
* `Shown.lower`: what becomes of a region stands for the same contents.
-/

import PromptMarkup.Proofs.Evaluation.Provenance

namespace PromptMarkup

open Markup

/-! ### Regions -/

/-- What becomes of some regions, in their order: each goes away, or stays with what becomes of its
parts, or is put into an item that has its range. -/
inductive Lowered : List Region → List Region → Prop
  | nothing : Lowered [] []
  | dropped {rest others : List Region} (region : Region) :
    Lowered rest others → Lowered (region :: rest) others
  | kept {region : Region} {parts rest others : List Region} :
    Lowered region.parts parts → Lowered rest others →
      Lowered (region :: rest) (⟨region.span, region.exact, parts⟩ :: others)
  | wrapped {region : Region} {parts rest others : List Region} :
    Lowered region.parts parts → Lowered rest others →
      Lowered (region :: rest) (⟨region.span, none, [⟨region.span, region.exact, parts⟩]⟩ :: others)

theorem Lowered.none (regions : List Region) : Lowered regions [] := by
  induction regions with
  | nil => exact .nothing
  | cons region rest ih => exact .dropped region ih

/-- A region becomes another one with the same range and the same text. -/
structure Region.Becomes (region other : Region) : Prop where
  span : other.span = region.span
  exact : other.exact = region.exact
  parts : Lowered region.parts other.parts

section Becoming

variable {region other : Region} {rest others : List Region}

theorem Region.Becomes.keep (becomes : region.Becomes other) (later : Lowered rest others) :
    Lowered (region :: rest) (other :: others) := by
  obtain ⟨span, exact, parts⟩ := other
  obtain ⟨rfl, rfl, inside⟩ := becomes
  exact .kept inside later

theorem Region.Becomes.wrap (becomes : region.Becomes other) (later : Lowered rest others) :
    Lowered (region :: rest) (⟨other.span, none, [other]⟩ :: others) := by
  obtain ⟨span, exact, parts⟩ := other
  obtain ⟨rfl, rfl, inside⟩ := becomes
  exact .wrapped inside later

end Becoming

/-! ### Children -/

/-- A child leaves no block, or one that its region becomes. Only blank text may have an empty
range. -/
def ComponentChild.Presents (around : Inherited) (child : ComponentChild) : Prop :=
  child.blocks around = [] ∨ ∃ block, child.blocks around = [block] ∧
    child.region.Becomes block.region ∧
      (block.isBlankText = false → block.span.start < block.span.stop)

theorem Block.region_span (block : Block) : block.region.span = block.span := by
  cases block
  rfl

/-- A block with a range that is not empty is an item, or is put into one with its range. -/
theorem Block.region_asItem {block : Block} (around : Inherited) (span : Span)
    (full : block.span.start < block.span.stop) :
    (block.asItem around span).region = block.region ∨
      (block.asItem around span).region = ⟨block.region.span, none, [block.region]⟩ := by
  have proper : block.span.isEmpty = false := decide_eq_false (Nat.not_le.mpr full)
  unfold Block.asItem
  split
  · exact .inl rfl
  · rw [proper, block.region_span]
    exact .inr rfl

section Children

variable {around : Inherited} {children : List ComponentChild}

/-- **Children become their blocks.** -/
theorem lowered_childBlocks (presents : ∀ child ∈ children, child.Presents around) :
    Lowered (childRegions children) (blockRegions (childBlocks around children)) := by
  induction children with
  | nil => exact .nothing
  | cons child rest ih =>
    obtain ⟨here, later⟩ := List.forall_mem_cons.mp presents
    rw [childRegions, childBlocks]
    rcases here with silent | ⟨block, single, becomes, _⟩
    · rw [silent]
      exact .dropped _ (ih later)
    · rw [single]
      exact becomes.keep (ih later)

/-- **In a list, children become items**, or are put into items of their own. -/
theorem lowered_listItems (span : Span) (presents : ∀ child ∈ children, child.Presents around) :
    Lowered (childRegions children)
      (blockRegions (listItems around span (childBlocks around children))) := by
  induction children with
  | nil => exact .nothing
  | cons child rest ih =>
    obtain ⟨here, later⟩ := List.forall_mem_cons.mp presents
    rw [childRegions, childBlocks]
    rcases here with silent | ⟨block, single, becomes, solid⟩
    · rw [silent]
      exact .dropped _ (ih later)
    · rw [single, List.singleton_append]
      unfold listItems
      cases blank : block.isBlankText with
      | true =>
        rw [List.filter_cons_of_neg (by rw [blank]; decide)]
        exact .dropped _ (ih later)
      | false =>
        rw [List.filter_cons_of_pos (by rw [blank]; decide), List.map_cons, blockRegions]
        rcases Block.region_asItem around span (solid blank) with same | same
        · rw [same]
          exact becomes.keep (ih later)
        · rw [same]
          exact becomes.wrap (ih later)

theorem lowered_arrangeChildren (node : ComponentNode)
    (presents : ∀ child ∈ children, child.Presents around) :
    Lowered (childRegions children)
      (blockRegions (arrangeChildren node around (childBlocks around children))) := by
  unfold arrangeChildren
  split
  · exact lowered_listItems node.span presents
  · exact lowered_childBlocks presents

end Children

/-! ### Components -/

/-- No component leaves exact text. -/
theorem exactText?_blockKind (node : ComponentNode) (inherited : Inherited)
    (children : List Block) : (node.blockKind inherited children).exactText? = none := by
  have captioned : node.captionedKind.exactText? = none := by
    unfold ComponentNode.captionedKind
    split <;> rfl
  have media : (node.mediaKind inherited).exactText? = none := by
    unfold ComponentNode.mediaKind
    split <;> rfl
  have generic : (ComponentNode.genericKind children).exactText? = none := by
    unfold ComponentNode.genericKind
    split <;> rfl
  unfold ComponentNode.blockKind
  split <;> first | rfl | exact captioned | exact media | exact generic

theorem presents_text {chunk : TextChunk} (around : Inherited)
    (solid : (ComponentChild.text chunk).region.IsSolid) :
    (ComponentChild.text chunk).Presents around := by
  obtain ⟨value, span, exact⟩ := chunk
  refine .inr ⟨_, rfl, ⟨rfl, ?_, .nothing⟩, fun plain => ?_⟩
  · cases exact <;> rfl
  · rcases solid.here with full | empty
    · exact full
    · cases exact with
      | false => cases empty
      | true =>
        obtain rfl : value = "" := Option.some.inj empty
        cases plain

/-- A component with a range that is not empty leaves a block with such a range. -/
theorem presents_node {node : ComponentNode} {around : Inherited}
    (full : node.region.span.start < node.region.span.stop)
    (becomes : ∀ block ∈ node.blocks around, node.blocks around = [block] ∧
      node.region.Becomes block.region) : (ComponentChild.node node).Presents around := by
  unfold ComponentChild.Presents
  rw [ComponentChild.blocks]
  cases blocks : node.blocks around with
  | nil => exact .inl rfl
  | cons block rest =>
    rw [blocks] at becomes
    obtain ⟨single, region⟩ := becomes block List.mem_cons_self
    refine .inr ⟨block, single, region, fun _ => ?_⟩
    rwa [← block.region_span, region.span]

mutual

/-- **A component becomes its block**, whatever is below it. -/
theorem becomes_component (around : Inherited) (node : ComponentNode)
    (solid : ∀ part ∈ node.region.parts, part.IsSolid) :
    ∀ block ∈ node.blocks around, node.blocks around = [block] ∧
      node.region.Becomes block.region := by
  obtain ⟨component, tag, props, children, span⟩ := node
  rw [ComponentNode.blocks]
  split
  · exact List.forall_mem_nil _
  · refine List.forall_mem_singleton.mpr ⟨rfl, rfl, exactText?_blockKind _ _ _, ?_⟩
    have inside := presents_children (ComponentNode.inherited ⟨component, tag, props, children,
      span⟩ around) children solid
    show Lowered (childRegions children) (blockRegions _)
    split
    · exact lowered_arrangeChildren _ inside
    · unfold arrangeChildren
      split <;> exact .none _

theorem presents_children (around : Inherited) (children : List ComponentChild)
    (solid : ∀ region ∈ childRegions children, region.IsSolid) :
    ∀ child ∈ children, child.Presents around :=
  match children with
  | [] => List.forall_mem_nil _
  | .node node :: rest => by
    obtain ⟨here, later⟩ := List.forall_mem_cons.mp solid
    refine List.forall_mem_cons.mpr ⟨?_, presents_children around rest later⟩
    have inside := becomes_component around node fun part member => here.inside member
    refine presents_node (here.here.resolve_right fun inexact => ?_) inside
    obtain ⟨component, tag, props, children, span⟩ := node
    cases inexact
  | .text chunk :: rest => by
    obtain ⟨here, later⟩ := List.forall_mem_cons.mp solid
    exact List.forall_mem_cons.mpr
      ⟨presents_text around here, presents_children around rest later⟩

end

/-- The block of a document is that of its root. -/
theorem blocks_document {root : ComponentNode} (document : root.component.kind = .document) :
    root.blocks .standard = [presentDocument root] := by
  have single : ∃ block, root.blocks .standard = [block] ∧ block.kind = .document := by
    obtain ⟨component, tag, props, children, span⟩ := root
    replace document : component.kind = .document := document
    have loud : component.kind.isSilent = false := by
      rw [document]
      rfl
    rw [ComponentNode.blocks, if_neg (by rw [loud]; decide)]
    refine ⟨_, rfl, ?_⟩
    show ComponentNode.blockKind _ _ _ = _
    unfold ComponentNode.blockKind
    rw [document]
  obtain ⟨block, same, kind⟩ := single
  unfold presentDocument
  simp only [same, kind]

/-- **A document becomes its block.** -/
theorem becomes_presentDocument {root : ComponentNode} (document : root.component.kind = .document)
    (solid : ∀ part ∈ root.region.parts, part.IsSolid) :
    root.region.Becomes (presentDocument root).region := by
  have becomes := becomes_component .standard root solid
  rw [blocks_document document] at becomes
  exact (becomes _ List.mem_cons_self).2

/-! ### Provenance -/

variable {registry : Registry}

theorem Region.IsAnchored.lower {span : Span} {regions others : List Region}
    (lowered : Lowered regions others) (anchored : ∀ region ∈ regions, region.IsAnchored span) :
    ∀ region ∈ others, region.IsAnchored span := by
  induction lowered with
  | nothing => exact List.forall_mem_nil _
  | dropped region _ ih => exact ih (List.forall_mem_cons.mp anchored).2
  | kept _ _ inside ih =>
    obtain ⟨here, later⟩ := List.forall_mem_cons.mp anchored
    refine List.forall_mem_cons.mpr ⟨.intro here.here ?_, ih later⟩
    exact inside fun part member => here.inside member
  | wrapped _ _ inside ih =>
    obtain ⟨here, later⟩ := List.forall_mem_cons.mp anchored
    refine List.forall_mem_cons.mpr ⟨.intro ⟨here.here.1, rfl⟩ ?_, ih later⟩
    refine List.forall_mem_singleton.mpr (.intro here.here ?_)
    exact inside fun part member => here.inside member

/-- **What becomes of regions stands for the same contents.** -/
theorem Shown.lower {contents : List Content} {regions others : List Region}
    (shown : Shown registry false contents regions) (lowered : Lowered regions others) :
    Shown registry true contents others := by
  induction shown generalizing others with
  | nothing =>
    cases lowered
    exact .nothing
  | skipped content _ ih => exact .skipped content (ih lowered)
  | text node _ ih =>
    cases lowered with
    | dropped _ later => exact .skipped _ (ih later)
    | kept inside later =>
      cases inside
      exact .text node (ih later)
    | wrapped inside later =>
      cases inside
      exact .item rfl (.text node (ih later))
  | template node _ ih =>
    cases lowered with
    | dropped _ later => exact .skipped _ (ih later)
    | kept inside later =>
      cases inside
      exact .template node (ih later)
    | wrapped inside later =>
      cases inside
      exact .item rfl (.template node (ih later))
  | element _ _ within ih =>
    cases lowered with
    | dropped _ later => exact .skipped _ (ih later)
    | kept inside later => exact .element (within inside) (ih later)
    | wrapped inside later => exact .item rfl (.element (within inside) (ih later))
  | included names anchored _ ih =>
    have single := List.forall_mem_singleton.mpr anchored
    cases lowered with
    | dropped _ later => exact ih later
    | kept inside later =>
      refine .included names ?_ (ih later)
      exact Region.IsAnchored.lower (.kept inside .nothing) single _ List.mem_cons_self
    | wrapped inside later =>
      refine .included names ?_ (ih later)
      exact Region.IsAnchored.lower (.wrapped inside .nothing) single _ List.mem_cons_self
  | repeated loop _ ih => exact .repeated loop (ih lowered)
  | item wrapped => cases wrapped

end PromptMarkup
