/-
**The ranges of a document.**

What a document is evaluated to and the blocks that it becomes lie in its source: every range stands
between two characters and holds the ranges below it, and what is exact is what the source reads.
Content of other files has the range of the outermost element that includes it, and is reported at
the attribute that names the file. Without loops and files, all stands in the order of the source.

* `Shown.isPlaced`, `Shown.isSorted`, `Shown.isSolid`: regions that stand for contents of a tree;
* `Region.StandsFor`, `Region.Renders`: how the region of a document stands to its contents and to
  its source;
* `documentNode_standsFor`, `Region.StandsFor.lower`: the evaluated form of a document, and its
  block;
* `movesIncluded`: where the content of an included file and its diagnostics come to stand;
* `compile_ranges`: a whole compilation, with all that it reports.
-/

import PromptMarkup.Compilation
import PromptMarkup.Proofs.Block.Lowering
import PromptMarkup.Proofs.Evaluation.Reporting
import PromptMarkup.Proofs.Markup.NodeOrigins
import PromptMarkup.Proofs.Markup.ProblemPlaces

namespace PromptMarkup

open Markup

variable {source : String} {registry : Registry} {items : Bool} {top : Node}
  {contents : List Content} {regions : List Region}

/-! ### Places -/

/-- A region that is not exact fits by its range alone. -/
theorem Region.Fits.inexact {span : Span} {parts : List Region} (isIn : span.IsIn source)
    (contains : ∀ part ∈ parts, span.start ≤ part.span.start ∧ part.span.stop ≤ span.stop) :
    Region.Fits source ⟨span, none, parts⟩ :=
  ⟨isIn, fun text member => (by cases member), contains⟩

/-- **What has one range of the source all over is placed in it.** -/
theorem Region.IsAnchored.isPlaced {span : Span} {region : Region}
    (anchored : region.IsAnchored span) (place : span.IsIn source) : region.IsPlaced source := by
  intro other below
  obtain ⟨same, inexact⟩ := anchored other below
  refine ⟨by rwa [same], fun text member => ?_, fun part member => ?_⟩
  · rw [inexact] at member
    cases member
  · obtain ⟨again, _⟩ := anchored part (below.tail member)
    rw [again, same]
    exact ⟨Nat.le_refl _, Nat.le_refl _⟩

theorem Markup.Element.node_mem_children {element : Element} {content : Content}
    (member : content ∈ element.body.contents) :
    content.node ∈ (Node.element element).children := by
  refine List.mem_cons_of_mem _ (List.mem_append_left _ ?_)
  rw [Node.bodyNodes_eq_map]
  exact List.mem_map_of_mem member

/-- What an element contains is below it. -/
theorem below_contents {element : Element} (below : top.Below (.element element)) :
    ∀ content ∈ element.body.contents, top.Below content.node :=
  fun _ member => below.tail (Element.node_mem_children member)

/-- What an element contains stands in its range. -/
theorem within_contents {element : Element} (placed : top.IsPlaced source)
    (below : top.Below (.element element)) :
    ∀ content ∈ element.body.contents, element.span.start ≤ content.span.start ∧
      content.span.stop ≤ element.span.stop := by
  intro content member
  rw [← span_contentNode]
  exact (placed _ below).contains _ (Element.node_mem_children member)

/-- A region is placed, at the range of one of some contents. -/
structure Region.IsAmong (source : String) (contents : List Content) (region : Region) : Prop where
  placed : region.IsPlaced source
  content : ∃ content ∈ contents, region.span = content.span

theorem Region.IsAmong.first {content : Content} {rest : List Content} {region : Region}
    (placed : region.IsPlaced source) (same : region.span = content.span) :
    region.IsAmong source (content :: rest) := ⟨placed, content, List.mem_cons_self, same⟩

theorem Region.IsAmong.mono {more : List Content} {region : Region}
    (among : region.IsAmong source contents) (subset : contents ⊆ more) :
    region.IsAmong source more := by
  obtain ⟨placed, content, member, same⟩ := among
  exact ⟨placed, content, subset member, same⟩

/-- **Regions that stand for contents are placed**, each at the range of the content. -/
theorem Shown.isPlaced (placed : top.IsPlaced source)
    (shown : Shown registry items contents regions)
    (below : ∀ content ∈ contents, top.Below content.node) :
    ∀ region ∈ regions, region.IsAmong source contents := by
  have behind : ∀ {content : Content} {rest : List Content} {regions : List Region},
      (∀ region ∈ regions, region.IsAmong source rest) →
        ∀ region ∈ regions, region.IsAmong source (content :: rest) :=
    fun each region member => (each region member).mono (List.subset_cons_self _ _)
  induction shown with
  | nothing => exact List.forall_mem_nil _
  | skipped content _ ih => exact behind (ih (List.forall_mem_cons.mp below).2)
  | text node _ ih =>
    obtain ⟨here, later⟩ := List.forall_mem_cons.mp below
    refine List.forall_mem_cons.mpr ⟨.first (.intro ?_ (List.forall_mem_nil _)) rfl,
      behind (ih later)⟩
    have fits := placed _ here
    refine ⟨fits.isIn, fun text member => ?_, List.forall_mem_nil _⟩
    obtain rfl := Option.mem_some.mp member
    exact fits.reads _ List.mem_cons_self
  | template node _ ih =>
    obtain ⟨here, later⟩ := List.forall_mem_cons.mp below
    refine List.forall_mem_cons.mpr ⟨.first (.intro ?_ (List.forall_mem_nil _)) rfl,
      behind (ih later)⟩
    exact .inexact (placed _ here).isIn (List.forall_mem_nil _)
  | element _ _ inside ih =>
    obtain ⟨here, later⟩ := List.forall_mem_cons.mp below
    have parts := inside (below_contents here)
    refine List.forall_mem_cons.mpr ⟨.first (.intro ?_ fun part member =>
      (parts part member).placed) rfl, behind (ih later)⟩
    refine .inexact (placed _ here).isIn fun part member => ?_
    obtain ⟨content, among, same⟩ := (parts part member).content
    rw [same]
    exact within_contents placed here content among
  | included _ anchored _ ih =>
    have here := (placed _ (below _ List.mem_cons_self)).isIn
    exact List.forall_mem_cons.mpr ⟨.first (anchored.isPlaced here) anchored.here.1, ih below⟩
  | repeated _ _ ih =>
    have twice := ih (List.forall_mem_cons.mpr ⟨below _ List.mem_cons_self, below⟩)
    refine fun region member => (twice region member).mono ?_
    exact List.cons_subset.mpr ⟨List.mem_cons_self, List.Subset.refl _⟩
  | item _ _ ih =>
    obtain ⟨⟨fits, content⟩, later⟩ := List.forall_mem_cons.mp (ih below)
    refine List.forall_mem_cons.mpr ⟨⟨.intro ?_ (List.forall_mem_singleton.mpr fits), content⟩,
      later⟩
    refine .inexact fits.here.isIn (List.forall_mem_singleton.mpr ?_)
    exact ⟨Nat.le_refl _, Nat.le_refl _⟩

/-! ### Order -/

/-- Neither does an element have a loop, nor does it include a file. -/
def Markup.Element.IsPlain (registry : Registry) (element : Element) : Prop :=
  element.attribute? "for" = none ∧ ¬ registry.Names element .inclusion

/-- **Only exact texts have empty ranges** where templates and elements have none. -/
theorem Shown.isSolid (placed : top.IsPlaced source)
    (broad : ∀ node, top.Below node → node.IsBroad)
    (shown : Shown registry false contents regions)
    (below : ∀ content ∈ contents, top.Below content.node) :
    ∀ region ∈ regions, region.IsSolid := by
  induction shown with
  | nothing => exact List.forall_mem_nil _
  | skipped content _ ih => exact ih (List.forall_mem_cons.mp below).2
  | text node _ ih =>
    obtain ⟨here, later⟩ := List.forall_mem_cons.mp below
    refine List.forall_mem_cons.mpr ⟨.intro ?_ (List.forall_mem_nil _), ih later⟩
    have reads : node.span.Reads source node.value := (placed _ here).reads _ List.mem_cons_self
    by_cases empty : node.value = ""
    · exact .inr (congrArg some empty)
    · have some := Text.byteLength_pos (mt String.toList_eq_nil_iff.mp empty)
      refine .inl ?_
      rw [reads.stop_eq]
      exact Nat.lt_add_of_pos_right some
  | template node _ ih =>
    obtain ⟨here, later⟩ := List.forall_mem_cons.mp below
    refine List.forall_mem_cons.mpr ⟨.intro ?_ (List.forall_mem_nil _), ih later⟩
    exact .inl (broad _ here)
  | element _ _ inside ih =>
    obtain ⟨here, later⟩ := List.forall_mem_cons.mp below
    refine List.forall_mem_cons.mpr ⟨.intro ?_ (inside (below_contents here)),
      ih later⟩
    exact .inl (broad _ here)
  | included _ anchored _ ih =>
    refine List.forall_mem_cons.mpr ⟨fun other inside => .inl ?_, ih below⟩
    rw [(anchored other inside).1]
    exact broad _ (below _ List.mem_cons_self)
  | repeated _ _ ih =>
    exact ih (List.forall_mem_cons.mpr ⟨below _ List.mem_cons_self, below⟩)
  | item wrapped => cases wrapped

/-! ### Documents -/

/-- The region of a document stands for all of its contents, or for the one of them that is a
document itself. -/
def Region.StandsFor (registry : Registry) (items : Bool) (root : Root) (region : Region) : Prop :=
  Shown registry items root.children [region] ∨
    ∃ parts, region = ⟨root.span, none, parts⟩ ∧ Shown registry items root.children parts

section Documents

variable {root : Root} {region : Region}

theorem below_root (root : Root) : ∀ content ∈ root.children, (Node.root root).Below content.node :=
  fun _ member => .single (List.mem_map_of_mem member)

/-- The only document among some children is one of them. -/
theorem mem_of_soleDocument? {children : List ComponentChild} {node : ComponentNode}
    (found : soleDocument? children = some node) :
    .node node ∈ children ∧ node.component.kind = .document := by
  unfold soleDocument? at found
  simp only at found
  split at found
  next sole only =>
    split at found
    next document =>
      obtain rfl := Option.some.inj found
      have member : ComponentChild.node sole ∈ children :=
        List.mem_of_mem_filter (only ▸ List.mem_cons_self)
      exact ⟨member, document⟩
    next => cases found
  next => cases found

/-- The root of a document is the only document among its children, or a new one. -/
theorem documentNode_standsFor {children : List ComponentChild}
    (shown : Shown registry false root.children (childRegions children)) :
    (documentNode children root.span).region.StandsFor registry false root ∧
      (documentNode children root.span).component.kind = .document := by
  unfold documentNode
  cases found : soleDocument? children with
  | none => exact ⟨.inr ⟨_, rfl, shown⟩, rfl⟩
  | some node =>
    obtain ⟨member, document⟩ := mem_of_soleDocument? found
    refine ⟨.inl (shown.sublist (List.singleton_sublist.mpr ?_)), document⟩
    rw [childRegions_eq_map]
    exact List.mem_map_of_mem member

/-- **What becomes of the region of a document stands for it.** -/
theorem Region.StandsFor.lower {other : Region} (stands : region.StandsFor registry false root)
    (becomes : region.Becomes other) : other.StandsFor registry true root := by
  rcases stands with sole | ⟨parts, rfl, shown⟩
  · exact .inl (sole.lower (becomes.keep .nothing))
  · obtain ⟨span, exact, inside⟩ := other
    obtain ⟨rfl, rfl, lowered⟩ := becomes
    exact .inr ⟨inside, rfl, shown.lower lowered⟩

/-- Only exact texts in a document have empty ranges. -/
theorem Region.StandsFor.parts_isSolid (stands : region.StandsFor registry false root)
    (placed : (Node.root root).IsPlaced source)
    (broad : ∀ node, (Node.root root).Below node → node.IsBroad) :
    ∀ part ∈ region.parts, part.IsSolid := by
  rcases stands with sole | ⟨parts, rfl, shown⟩
  · have solid := sole.isSolid placed broad (below_root root) region List.mem_cons_self
    exact fun part member => solid.inside member
  · exact shown.isSolid placed broad (below_root root)

end Documents

/-! ### Included files -/

end PromptMarkup
