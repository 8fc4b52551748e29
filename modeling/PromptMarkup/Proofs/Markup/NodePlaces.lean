/-
**Places of nodes.**

A node fits its source when its range lies between two characters of the source at either end, holds
the ranges of its children one behind the other, and every text that the node keeps with a range is
what the source reads there.

* `Node.texts`: the texts that a node keeps, each with its range;
* `Node.Below`, `Node.IsOfTag`: a node below another one, and a part of a tag;
* `Node.Fits`, `Node.IsPlaced`: a node fits, and so does everything below it;
* `Row`: nodes of which each begins where the one in front has ended, or later;
* `Node.IsPlaced.of_row`: a node is placed when its children stand in a row inside of it;
* `Node.IsPlaced.comparable`: of two nodes of a placed tree one is below the other, or they are
  apart.
-/

import Mathlib.Data.List.Pairwise
import Mathlib.Logic.Relation
import PromptMarkup.Markup.Node
import PromptMarkup.Proofs.Source.Reading

namespace PromptMarkup.Markup

/-! ### Nodes -/

/-- The texts that a node keeps, each with its range. -/
def Node.texts : Node → List (String × Span)
  | openTag node => [(node.name, node.nameSpan)]
  | closeTag node => [(node.name, node.nameSpan)]
  | pair node => [(node.key, node.keySpan)]
  | template node => [(node.expression, node.expressionSpan)]
  | text node => [(node.value, node.span)]
  | quoted node => [(node.value, node.valueSpan)]
  | forIterator node =>
    [(node.iterator, node.iteratorSpan), (node.collection, node.collectionSpan)]
  | _ => []

/-- A node fits its source. -/
structure Node.Fits (source : String) (node : Node) : Prop where
  ordered : node.span.start ≤ node.span.stop
  start_isValid : (⟨node.span.start⟩ : String.Pos.Raw).IsValid source
  stop_isValid : (⟨node.span.stop⟩ : String.Pos.Raw).IsValid source
  stop_le : node.span.stop ≤ source.utf8ByteSize
  contains : ∀ child ∈ node.children,
    node.span.start ≤ child.span.start ∧ child.span.stop ≤ node.span.stop
  apart : node.children.Pairwise fun first second => first.span.stop ≤ second.span.start
  reads : ∀ part ∈ node.texts, part.2.Reads source part.1

/-- A node stands below another one, or is that node. -/
def Node.Below (top node : Node) : Prop :=
  Relation.ReflTransGen (fun parent child => child ∈ parent.children) top node

/-- What a tag is made of: no contents, and so no pragmas. -/
def Node.IsOfTag : Node → Prop
  | .root _ | .element _ | .comment _ | .pragma _ => False
  | _ => True

/-- **Everything below a part of a tag is a part of a tag.** -/
theorem Node.IsOfTag.below {top node : Node} (tag : top.IsOfTag) (below : top.Below node) :
    node.IsOfTag := by
  induction below with
  | refl => exact tag
  | @tail parent child _ member ih =>
    cases parent with
    | root | element | comment | pragma => exact absurd ih id
    | openTag opening =>
      obtain ⟨pair, _, rfl⟩ := List.mem_map.mp member
      trivial
    | pair pair =>
      obtain ⟨value, _, rfl⟩ := List.mem_map.mp member
      cases value <;> trivial
    | quotedTemplate quoted =>
      obtain ⟨part, _, rfl⟩ := List.mem_map.mp member
      cases part <;> trivial
    | closeTag | template | text | quoted | forIterator => exact absurd member List.not_mem_nil

/-- An element that consists of a tag has no pragmas in it. -/
theorem Node.not_below_of_selfClosing {element : Element} (sole : element.body = .selfClosing)
    (alone : element.closing = none) (pragma : Pragma) :
    ¬ (Node.element element).Below (.pragma pragma) := by
  intro below
  obtain same | ⟨child, member, below⟩ := Relation.ReflTransGen.cases_head below
  · cases same
  · rw [Node.children, sole, alone] at member
    obtain rfl := List.mem_singleton.mp member
    exact (show (Node.openTag element.opening).IsOfTag from trivial).below below

/-- A node and everything below it fit their source. -/
def Node.IsPlaced (source : String) (top : Node) : Prop := ∀ node, top.Below node → node.Fits source

/-- A node that fits is placed if all of its children are. -/
theorem Node.IsPlaced.intro {source : String} {top : Node} (fits : top.Fits source)
    (inside : ∀ child ∈ top.children, child.IsPlaced source) : top.IsPlaced source := by
  intro node below
  rcases Relation.ReflTransGen.cases_head below with rfl | ⟨child, member, later⟩
  · exact fits
  · exact inside child member node later

/-- What is placed has placed children. -/
theorem Node.IsPlaced.child {source : String} {top child : Node} (placed : top.IsPlaced source)
    (member : child ∈ top.children) : child.IsPlaced source :=
  fun node below => placed node (.head member below)

theorem Node.IsPlaced.fits {source : String} {node : Node} (placed : node.IsPlaced source) :
    node.Fits source := placed node .refl

theorem Node.Fits.isIn {source : String} {node : Node} (fits : node.Fits source) :
    node.span.IsIn source := .of_isValid fits.start_isValid fits.stop_isValid fits.ordered

theorem Node.IsPlaced.isIn {source : String} {node : Node} (placed : node.IsPlaced source) :
    node.span.IsIn source := placed.fits.isIn

/-! ### Rows -/

/-- Placed nodes between two offsets, each of which begins where the one in front has ended, or
later. -/
def Row (source : String) : Nat → List Node → Nat → Prop
  | start, [], stop => start ≤ stop
  | start, node :: rest, stop =>
    start ≤ node.span.start ∧ node.IsPlaced source ∧ Row source node.span.stop rest stop

section Rows

variable {source : String} {start stop : Nat} {nodes : List Node}

theorem Row.start_le_stop (row : Row source start nodes stop) : start ≤ stop := by
  induction nodes generalizing start with
  | nil => exact row
  | cons node rest ih =>
    obtain ⟨le, placed, later⟩ := row
    exact Nat.le_trans le (Nat.le_trans placed.fits.ordered (ih later))

theorem Row.mono {less more : Nat} (row : Row source start nodes stop) (le : less ≤ start)
    (ge : stop ≤ more) : Row source less nodes more := by
  induction nodes generalizing start less with
  | nil => exact Nat.le_trans le (Nat.le_trans row ge)
  | cons node rest ih =>
    obtain ⟨first, placed, later⟩ := row
    exact ⟨Nat.le_trans le first, placed, ih later (Nat.le_refl _)⟩

theorem row_append {first second : List Node} :
    Row source start (first ++ second) stop ↔
      ∃ middle, Row source start first middle ∧ Row source middle second stop := by
  induction first generalizing start with
  | nil =>
    constructor
    · exact fun row => ⟨start, Nat.le_refl start, row⟩
    · rintro ⟨middle, le, row⟩
      exact row.mono le (Nat.le_refl stop)
  | cons node rest ih =>
    constructor
    · rintro ⟨le, placed, row⟩
      obtain ⟨middle, left, right⟩ := ih.mp row
      exact ⟨middle, ⟨le, placed, left⟩, right⟩
    · rintro ⟨middle, ⟨le, placed, left⟩, right⟩
      exact ⟨le, placed, ih.mpr ⟨middle, left, right⟩⟩

theorem row_singleton {node : Node} (placed : node.IsPlaced source) (le : start ≤ node.span.start)
    (ge : node.span.stop ≤ stop) : Row source start [node] stop := ⟨le, placed, ge⟩

theorem Row.isPlaced (row : Row source start nodes stop) :
    ∀ node ∈ nodes, node.IsPlaced source := by
  induction nodes generalizing start with
  | nil => exact fun _ member => by cases member
  | cons node rest ih =>
    obtain ⟨_, placed, later⟩ := row
    exact List.forall_mem_cons.mpr ⟨placed, ih later⟩

theorem Row.contains (row : Row source start nodes stop) :
    ∀ node ∈ nodes, start ≤ node.span.start ∧ node.span.stop ≤ stop := by
  induction nodes generalizing start with
  | nil => exact fun _ member => by cases member
  | cons node rest ih =>
    obtain ⟨le, placed, later⟩ := row
    refine List.forall_mem_cons.mpr ⟨⟨le, later.start_le_stop⟩, fun other member => ?_⟩
    obtain ⟨first, last⟩ := ih later other member
    exact ⟨Nat.le_trans le (Nat.le_trans placed.fits.ordered first), last⟩

theorem Row.apart (row : Row source start nodes stop) :
    nodes.Pairwise fun first second => first.span.stop ≤ second.span.start := by
  induction nodes generalizing start with
  | nil => exact .nil
  | cons node rest ih =>
    obtain ⟨_, _, later⟩ := row
    exact List.pairwise_cons.mpr ⟨fun other member => (later.contains other member).1, ih later⟩

end Rows

/-- **A node is placed when its children stand in a row inside of it.** -/
theorem Node.IsPlaced.of_row {source : String} {node : Node}
    (start : (⟨node.span.start⟩ : String.Pos.Raw).IsValid source)
    (stop : (⟨node.span.stop⟩ : String.Pos.Raw).IsValid source)
    (row : Row source node.span.start node.children node.span.stop)
    (reads : ∀ part ∈ node.texts, part.2.Reads source part.1) : node.IsPlaced source := by
  refine .intro ?_ row.isPlaced
  exact ⟨row.start_le_stop, start, stop, stop.le_rawEndPos, row.contains, row.apart, reads⟩

/-- A text is placed where the source reads it. -/
theorem Node.IsPlaced.text {source value : String} {span : Span} (reads : span.Reads source value) :
    (Node.text ⟨value, span⟩).IsPlaced source :=
  .of_row reads.start_isValid reads.stop_isValid reads.start_le_stop
    (List.forall_mem_singleton.mpr reads)

/-! ### Nodes of one tree -/

section Tree

variable {source : String}

/-- What is below a placed node lies in its range. -/
theorem Node.IsPlaced.within {top node : Node} (placed : top.IsPlaced source)
    (below : top.Below node) :
    top.span.start ≤ node.span.start ∧ node.span.stop ≤ top.span.stop := by
  induction below using Relation.ReflTransGen.head_induction_on with
  | refl => exact ⟨Nat.le_refl _, Nat.le_refl _⟩
  | head member _ ih =>
    obtain ⟨first, last⟩ := placed.fits.contains _ member
    obtain ⟨start, stop⟩ := ih (placed.child member)
    exact ⟨Nat.le_trans first start, Nat.le_trans stop last⟩

/-- Two children of a node that fits are apart. -/
theorem Node.Fits.apart_of_ne {node first second : Node} (fits : node.Fits source)
    (left : first ∈ node.children) (right : second ∈ node.children) (different : first ≠ second) :
    first.span.stop ≤ second.span.start ∨ second.span.stop ≤ first.span.start := by
  have symmetric : Std.Symm fun one two : Node =>
      one.span.stop ≤ two.span.start ∨ two.span.stop ≤ one.span.start := ⟨fun _ _ => Or.symm⟩
  have apart : node.children.Pairwise fun one two =>
      one.span.stop ≤ two.span.start ∨ two.span.stop ≤ one.span.start :=
    fits.apart.imp fun le => .inl le
  exact apart.forall left right different

/-- **Of two nodes of a placed tree one is below the other, or they are apart.** -/
theorem Node.IsPlaced.comparable {top first second : Node} (placed : top.IsPlaced source)
    (left : top.Below first) (right : top.Below second) :
    first.Below second ∨ second.Below first ∨ first.span.stop ≤ second.span.start ∨
      second.span.stop ≤ first.span.start := by
  -- The induction is on the way down to the first node, up to where the two ways part.
  induction left using Relation.ReflTransGen.head_induction_on with
  | refl => exact .inl right
  | @head parent child member later ih =>
    rcases Relation.ReflTransGen.cases_head right with rfl | ⟨other, inside, below⟩
    · exact .inr (.inl (.head member later))
    · by_cases same : child = other
      · subst same
        exact ih (placed.child member) below
      · obtain ⟨start, stop⟩ := (placed.child member).within later
        obtain ⟨begin, finish⟩ := (placed.child inside).within below
        rcases placed.fits.apart_of_ne member inside same with before | behind
        · exact .inr (.inr (.inl (by omega)))
        · exact .inr (.inr (.inr (by omega)))

end Tree

end PromptMarkup.Markup
