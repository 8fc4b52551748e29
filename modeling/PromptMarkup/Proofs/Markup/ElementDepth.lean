/-
**How deeply elements nest.**

A path leads from a node down to one of its children, and on from there. An element is put together
with the elements around it still open, and none is begun with `elementDepthLimit` elements open. So
there are never more open, contents with some elements open around them have room for the others
below the limit, and an element that is closed takes the place that it left open.

* `Node.NestsWithin`: the elements on the paths down from a node are no more than a limit;
* `hasLeaf_of_mem_pieces`: a piece without elements is no element;
* `Assembly.Nests`, `Assembly.Nests.step`: what one piece preserves;
* `assemble_nests`, `parse_nests`: no path of a tree has more than `elementDepthLimit` elements.
-/

import Mathlib.Data.List.Chain
import PromptMarkup.Proofs.Markup.TreeTiling

namespace PromptMarkup.Markup

/-! ### Paths -/

def Node.isElement : Node → Bool
  | element _ => true
  | _ => false

/-- No path down from a node has more elements than a limit. -/
def Node.NestsWithin (limit : Nat) (top : Node) : Prop :=
  ∀ path : List Node, path.head? = some top →
    (path.IsChain fun parent child => child ∈ parent.children) →
      path.countP Node.isElement ≤ limit

theorem Node.NestsWithin.mono {limit more : Nat} {top : Node} (nests : top.NestsWithin limit)
    (le : limit ≤ more) : top.NestsWithin more :=
  fun path head chain => Nat.le_trans (nests path head chain) le

/-- **A path goes on from a child**, so a node adds to the paths of its children at most itself. -/
theorem Node.NestsWithin.intro {limit : Nat} {top : Node}
    (inside : ∀ child ∈ top.children, child.NestsWithin limit) :
    top.NestsWithin (limit + if top.isElement then 1 else 0) := by
  intro path head chain
  obtain ⟨below, rfl⟩ := List.head?_eq_some_iff.mp head
  obtain ⟨first, later⟩ := List.isChain_cons.mp chain
  have rest : below.countP Node.isElement ≤ limit := by
    cases below with
    | nil => exact Nat.zero_le limit
    | cons child more => exact inside child (first child rfl) _ rfl later
  rw [List.countP_cons]
  exact Nat.add_le_add_right rest _

/-- There are no elements below tags, values and leaves. -/
theorem Node.NestsWithin.part {top : Node} (part : top.isPart) : top.NestsWithin 0 := by
  intro path head chain
  induction path generalizing top with
  | nil => cases head
  | cons node below ih =>
    obtain rfl : node = top := Option.some.inj head
    obtain ⟨first, later⟩ := List.isChain_cons.mp chain
    have other : node.isElement = false := by cases node <;> trivial
    rw [List.countP_cons, other]
    cases below with
    | nil => exact Nat.le_refl 0
    | cons child more => exact ih (Node.isPart_child part (first child rfl)) rfl later

theorem Content.nestsWithin_leaf {content : Content} (leaf : content.isLeaf) :
    content.node.NestsWithin 0 := by
  cases content with
  | element node => cases leaf
  | template | comment | pragma | text => exact .part rfl

/-- **An element nests one deeper than its body.** -/
theorem Element.nestsWithin {limit : Nat} {element : Element}
    (inside : ∀ child ∈ Node.bodyNodes element.body, child.NestsWithin limit) :
    (Node.element element).NestsWithin (limit + 1) := by
  refine Node.NestsWithin.intro fun child member => ?_
  simp only [Node.children, List.mem_cons, List.mem_append, List.mem_map] at member
  rcases member with (rfl | body) | ⟨tag, _, rfl⟩
  · exact (Node.NestsWithin.part rfl).mono (Nat.zero_le limit)
  · exact inside child body
  · exact (Node.NestsWithin.part rfl).mono (Nat.zero_le limit)

/-- Contents that all nest within a limit. -/
def ContentsNest (limit : Nat) (contents : List Content) : Prop :=
  ∀ content ∈ contents, content.node.NestsWithin limit

/-! ### Pieces without elements -/

/-- The content of a piece that is neither a tag nor a literal element is no element. -/
def PieceForm.HasLeaf : PieceForm → Prop
  | leaf content => content.isLeaf
  | _ => True

theorem hasLeaf_readPiece (tags : LiteralTags) (first : Token) (tokens : List Token) :
    (readPiece tags first tokens).node.HasLeaf := by
  unfold readPiece
  split
  · unfold readOpening
    simp only
    split
    · unfold readLiteral
      simp only
      split <;> trivial
    · trivial
  · trivial
  · rfl
  · exact isLeaf_readComment first tokens
  · rfl

theorem hasLeaf_of_mem_pieces {tags : LiteralTags} {tokens : List Token} :
    ∀ piece ∈ pieces tags tokens, piece.form.HasLeaf := by
  induction tokens using pieces.induct tags with
  | case1 =>
    rw [pieces]
    exact List.forall_mem_nil _
  | case2 first rest reading =>
    rename_i ih
    rw [pieces]
    exact List.forall_mem_cons.mpr ⟨hasLeaf_readPiece tags first rest, ih⟩

/-! ### Assemblies -/

/-- The contents of each open element nest within what the elements around them leave of the limit,
the element itself among these. -/
def OpenNests (contents : List Content) : List OpenElement → Prop
  | [] => ContentsNest elementDepthLimit contents
  | innermost :: outer =>
    outer.length < elementDepthLimit ∧
      ContentsNest (elementDepthLimit - (outer.length + 1)) innermost.contents ∧
      OpenNests contents outer

/-- The contents of an assembly leave room for the elements that are open around them. -/
def Assembly.Nests (assembly : Assembly) : Prop := OpenNests assembly.contents assembly.opened

section Assembling

variable {assembly : Assembly}

theorem Assembly.Nests.length_le (nests : assembly.Nests) :
    assembly.opened.length ≤ elementDepthLimit := by
  obtain ⟨opened, contents⟩ := assembly
  cases opened with
  | nil => exact Nat.zero_le _
  | cons innermost outer => exact nests.1

theorem Assembly.Nests.add {content : Content} (nests : assembly.Nests)
    (within : content.node.NestsWithin (elementDepthLimit - assembly.opened.length)) :
    (assembly.add content).Nests := by
  obtain ⟨opened, contents⟩ := assembly
  cases opened with
  | nil => exact List.forall_mem_cons.mpr ⟨within, nests⟩
  | cons innermost outer =>
    obtain ⟨room, inner, around⟩ := nests
    exact ⟨room, List.forall_mem_cons.mpr ⟨within, inner⟩, around⟩

theorem Assembly.Nests.add_leaf {content : Content} (nests : assembly.Nests)
    (leaf : content.isLeaf) : (assembly.add content).Nests :=
  nests.add ((Content.nestsWithin_leaf leaf).mono (Nat.zero_le _))

/-- Where an element may be begun, one without elements in it has room. -/
theorem Assembly.Nests.add_element {element : Element} (nests : assembly.Nests)
    (room : assembly.opened.length < elementDepthLimit)
    (inside : ∀ child ∈ Node.bodyNodes element.body, child.NestsWithin 0) :
    (assembly.add (.element element)).Nests :=
  nests.add ((Element.nestsWithin inside).mono (by omega))

theorem OpenElement.nestsWithin_finish {limit : Nat} {element : OpenElement}
    (inside : ContentsNest limit element.contents) (closing : Option CloseTag) :
    (Node.element (element.finish closing)).NestsWithin (limit + 1) := by
  refine Element.nestsWithin fun child member => ?_
  obtain ⟨content, within, rfl⟩ := List.mem_map.mp member
  exact inside content (List.mem_reverse.mp within)

/-- **An element that is closed fits where it was open.** -/
theorem Assembly.Nests.close (nests : assembly.Nests) (closing : Option CloseTag) :
    (assembly.close closing).Nests := by
  obtain ⟨opened, contents⟩ := assembly
  cases opened with
  | nil => exact nests
  | cons innermost outer =>
    obtain ⟨room, inner, around⟩ := nests
    have rows : Assembly.Nests ⟨outer, contents⟩ := around
    refine rows.add ((OpenElement.nestsWithin_finish inner closing).mono ?_)
    show elementDepthLimit - (outer.length + 1) + 1 ≤ elementDepthLimit - outer.length
    omega

/-- **What one piece preserves**: an element is begun only where there is room for it. -/
theorem Assembly.Nests.step {piece : Piece} (nests : assembly.Nests) (leaf : piece.form.HasLeaf)
    (shallow : ¬ (piece.opensElement ∧ elementDepthLimit ≤ assembly.opened.length)) :
    (assembly.step piece).1.Nests := by
  obtain ⟨form, problems, text, span⟩ := piece
  have room : Piece.opensElement ⟨form, problems, text, span⟩ = true →
      assembly.opened.length < elementDepthLimit := fun opens =>
    Nat.lt_of_not_le fun deep => shallow ⟨opens, deep⟩
  have none : ∀ child ∈ ([] : List Node), child.NestsWithin 0 := List.forall_mem_nil _
  unfold Assembly.step
  cases form with
  | leaf content => exact nests.add_leaf leaf
  | literal tag body closing =>
    exact nests.add_element (room rfl) (List.forall_mem_singleton.mpr (.part rfl))
  | opening tag terminator =>
    cases terminator with
    | selfClose => exact nests.add_element (room rfl) none
    | missing => exact nests.add_element (room rfl) none
    | close => exact ⟨room rfl, List.forall_mem_nil _, nests⟩
  | closing tag =>
    simp only
    split
    · exact nests.add_leaf rfl
    · split
      · exact nests.close (some tag)
      · exact nests.add_leaf rfl

theorem finishAll_nests {pending contents : List Content} {opened : List OpenElement}
    (nests : OpenNests contents opened)
    (more : ContentsNest (elementDepthLimit - opened.length) pending) :
    ContentsNest elementDepthLimit (finishAll pending contents opened).1 := by
  induction opened generalizing pending with
  | nil =>
    intro content member
    rcases List.mem_append.mp (List.mem_reverse.mp member) with member | member
    · exact more content member
    · exact nests content member
  | cons innermost outer ih =>
    obtain ⟨room, inner, around⟩ := nests
    have whole : ContentsNest (elementDepthLimit - (outer.length + 1))
        (OpenElement.contents { innermost with contents := pending ++ innermost.contents }) :=
      List.forall_mem_append.mpr ⟨more, inner⟩
    refine ih around (List.forall_mem_singleton.mpr ?_)
    exact (OpenElement.nestsWithin_finish whole none).mono (by omega)

/-- **The contents that pieces make up nest within the limit.** -/
theorem assemble_nests {all : List Piece} (nests : assembly.Nests)
    (leaves : ∀ piece ∈ all, piece.form.HasLeaf) :
    ContentsNest elementDepthLimit (assemble assembly all).1 := by
  induction assembly, all using assemble.induct with
  | case1 assembly =>
    rw [assemble]
    exact finishAll_nests nests (List.forall_mem_nil _)
  | case2 assembly piece rest deep skipped span =>
    rename_i ih
    rw [assemble, if_pos deep]
    have suffix := skipElement_suffix 0 piece.span.start (piece :: rest)
    exact ih (nests.add_leaf rfl) fun other member => leaves other (suffix.mem member)
  | case3 assembly piece rest shallow next found same =>
    rename_i ih
    obtain ⟨leaf, later⟩ := List.forall_mem_cons.mp leaves
    have stepped := nests.step leaf shallow
    rw [same] at stepped
    rw [assemble, if_neg shallow, same]
    exact ih stepped later

end Assembling

/-- **No path of the tree of a source has more than `elementDepthLimit` elements.** -/
theorem parse_nests (tags : LiteralTags) (source : String) :
    (Node.root (parse tags source).root).NestsWithin elementDepthLimit := by
  have fresh : Assembly.Nests ⟨[], []⟩ := List.forall_mem_nil _
  have inside : ∀ child ∈ (Node.root (parse tags source).root).children,
      child.NestsWithin elementDepthLimit := fun child member => by
    obtain ⟨content, inside, rfl⟩ := List.mem_map.mp member
    exact assemble_nests fresh hasLeaf_of_mem_pieces content inside
  exact Node.NestsWithin.intro inside

end PromptMarkup.Markup
