/-
**Places in the tree.**

While the pieces of a source are put together, the contents of the document and of every open
element stand in a row, and the row of an element goes on where that of the element around it has
stopped. Whatever is malformed is kept as an element or a text that stands where its pieces stood.

A path to an offset goes from a node down to one of its children as long as a child is at the
offset. It takes a child that holds the offset before one that only ends there. The children of a
placed node stand one behind the other, so there is at most one child that holds the offset, and
what is below another one does not hold it.

* `Assembly.Fits`: the invariant of an assembly whose pieces have been read up to an offset;
* `Assembly.Fits.add`, `Assembly.Fits.close`, `Assembly.Fits.step`: what one piece preserves;
* `finishAll_row`, `skipElement_reads`: open elements at the end, and elements that nest too deeply;
* `span_parse`, `placed_parse`: the tree of a source is that of all of it, and is placed in it;
* `parse_isPlaced`: every node of the tree of a source fits the source;
* `Node.childAt?_eq_some_of_contains`, `Node.childAt?_eq_none_iff`: where a path goes on, and where
  it stops;
* `Node.isChain_descend`, `Node.touches_of_mem_descend`, `Node.IsPlaced.mem_descend`: what is on a
  path;
* `Node.IsInnermostPath`, `pathAt_innermost`: the path of an offset in the tree of a source.
-/

import PromptMarkup.Proofs.Markup.PiecePlaces

namespace PromptMarkup.Markup

variable {source : String} {start stop : Nat}

theorem span_contentNode (content : Content) : content.node.span = content.span := by
  cases content <;> rfl

/-- An element is placed when its contents stand in a row behind its open tag. -/
theorem Node.IsPlaced.element {tag : OpenTag} {body : Body} {closing : Option CloseTag}
    (placed : (Node.openTag tag).IsPlaced source) (valid : (⟨stop⟩ : String.Pos.Raw).IsValid source)
    (row : Row source tag.span.stop (bodyNodes body ++ closing.toList.map closeTag) stop) :
    (Node.element ⟨tag, body, closing, ⟨tag.span.start, stop⟩⟩).IsPlaced source := by
  refine .of_row placed.fits.start_isValid valid ⟨Nat.le_refl _, placed, row⟩ ?_
  intro part absurd
  cases absurd

/-! ### Rows of contents -/

/-- Contents, last one first, that stand in a row. -/
def ContentRow (source : String) (start : Nat) (contents : List Content) (stop : Nat) : Prop :=
  Row source start (contents.reverse.map Content.node) stop

theorem ContentRow.append {middle : Nat} {first second : List Content}
    (front : ContentRow source start first middle) (back : ContentRow source middle second stop) :
    ContentRow source start (second ++ first) stop := by
  unfold ContentRow
  rw [List.reverse_append, List.map_append]
  exact row_append.mpr ⟨middle, front, back⟩

theorem ContentRow.singleton {content : Content} (placed : content.node.IsPlaced source)
    (le : start ≤ content.node.span.start) (ge : content.node.span.stop ≤ stop) :
    ContentRow source start [content] stop := row_singleton placed le ge

/-- Some contents end where the last one of them does. -/
theorem ContentRow.to_last {contents : List Content} {position : Nat}
    (valid : (⟨start⟩ : String.Pos.Raw).IsValid source)
    (row : ContentRow source start contents position)
    (last : (contents.head?.elim start fun content => content.span.stop) = stop) :
    ContentRow source start contents stop ∧ (⟨stop⟩ : String.Pos.Raw).IsValid source ∧
      stop ≤ position := by
  cases contents with
  | nil =>
    obtain rfl : start = stop := last
    exact ⟨Nat.le_refl start, valid, row⟩
  | cons content rest =>
    obtain rfl : content.span.stop = stop := last
    unfold ContentRow at row ⊢
    rw [List.reverse_cons, List.map_append] at row ⊢
    obtain ⟨middle, front, le, placed, ge⟩ := row_append.mp row
    rw [← span_contentNode]
    refine ⟨row_append.mpr ⟨middle, front, row_singleton placed le (Nat.le_refl _)⟩, ?_, ge⟩
    exact placed.fits.stop_isValid

/-! ### Open elements -/

/-- The open tag of an element is placed, and the contents so far stand in a row behind it. -/
structure OpenElement.Fits (source : String) (element : OpenElement) (position : Nat) : Prop where
  tag : (Node.openTag element.tag).IsPlaced source
  behind : element.tag.span.stop ≤ element.bodyStart
  valid : (⟨element.bodyStart⟩ : String.Pos.Raw).IsValid source
  row : ContentRow source element.bodyStart element.contents position

/-- **An element that is closed is placed**, with its close tag or without one. -/
theorem OpenElement.Fits.finish {element : OpenElement} {position : Nat} {closing : Option CloseTag}
    (fits : element.Fits source position) (le : position ≤ stop)
    (close : ∀ tag ∈ closing, (Node.closeTag tag).IsPlaced source ∧
      position ≤ tag.span.start ∧ tag.span.stop = stop) :
    (Node.element (element.finish closing)).IsPlaced source ∧
      (element.finish closing).span.stop ≤ stop := by
  cases closing with
  | none =>
    unfold OpenElement.finish
    simp only
    generalize last : (element.contents.head?.elim element.bodyStart fun content =>
      content.span.stop) = ending
    obtain ⟨row, valid, before⟩ := fits.row.to_last fits.valid last
    -- Contents begin behind the open tag, so that the element never ends with its tag instead.
    have order : element.tag.span.stop ≤ ending := Nat.le_trans fits.behind row.start_le_stop
    rw [Nat.max_eq_left order]
    refine ⟨.element fits.tag valid ?_, Nat.le_trans before le⟩
    rw [Option.toList_none, List.map_nil, List.append_nil]
    exact row.mono fits.behind (Nat.le_refl _)
  | some tag =>
    obtain ⟨placed, after, rfl⟩ := close tag rfl
    unfold OpenElement.finish
    simp only
    have order : element.tag.span.stop ≤ tag.span.stop :=
      Nat.le_trans fits.behind (Nat.le_trans fits.row.start_le_stop le)
    rw [Nat.max_eq_left order]
    refine ⟨.element fits.tag placed.fits.stop_isValid (row_append.mpr ⟨position, ?_, ?_⟩),
      Nat.le_refl _⟩
    · exact fits.row.mono fits.behind (Nat.le_refl _)
    · exact row_singleton placed after (Nat.le_refl _)

/-! ### Assemblies -/

/-- The contents of the document and of the open elements, innermost first, stand in rows. What is
around an element goes up to its open tag. -/
def OpenRows (source : String) (contents : List Content) : List OpenElement → Nat → Prop
  | [], position => ContentRow source 0 contents position
  | innermost :: outer, position =>
    innermost.Fits source position ∧ OpenRows source contents outer innermost.tag.span.start

/-- The contents of an assembly stand in rows up to an offset. -/
def Assembly.Fits (source : String) (assembly : Assembly) (position : Nat) : Prop :=
  OpenRows source assembly.contents assembly.opened position

section Assembling

variable {assembly : Assembly}

/-- **Content that is added goes on with the innermost row.** -/
theorem Assembly.Fits.add {content : Content} (fits : assembly.Fits source start)
    (placed : content.node.IsPlaced source) (le : start ≤ content.node.span.start)
    (ge : content.node.span.stop ≤ stop) : (assembly.add content).Fits source stop := by
  obtain ⟨opened, contents⟩ := assembly
  cases opened with
  | nil => exact ContentRow.append fits (.singleton placed le ge)
  | cons innermost outer =>
    obtain ⟨⟨tag, behind, valid, row⟩, around⟩ := fits
    exact ⟨⟨tag, behind, valid, row.append (.singleton placed le ge)⟩, around⟩

/-- **A close tag closes the innermost element where that stands.** -/
theorem Assembly.Fits.close {tag : CloseTag} (fits : assembly.Fits source tag.span.start)
    (placed : (Node.closeTag tag).IsPlaced source) :
    (assembly.close (some tag)).Fits source tag.span.stop := by
  obtain ⟨opened, contents⟩ := assembly
  cases opened with
  | nil => exact Row.mono fits (Nat.le_refl _) placed.fits.ordered
  | cons innermost outer =>
    obtain ⟨inner, around⟩ := fits
    have close : ∀ other ∈ some tag, (Node.closeTag other).IsPlaced source ∧
        tag.span.start ≤ other.span.start ∧ other.span.stop = tag.span.stop := by
      intro other member
      obtain rfl := Option.mem_some.mp member
      exact ⟨placed, Nat.le_refl _, rfl⟩
    obtain ⟨whole, le⟩ := inner.finish placed.fits.ordered close
    have rows : Assembly.Fits source ⟨outer, contents⟩ innermost.tag.span.start := around
    exact rows.add whole (Nat.le_refl _) le

/-- **What one piece preserves.** -/
theorem Assembly.Fits.step {piece : Piece} (fits : assembly.Fits source piece.span.start)
    (placed : piece.IsPlaced source) : (assembly.step piece).1.Fits source piece.span.stop := by
  obtain ⟨form, problems, text, span⟩ := piece
  obtain ⟨reads, inside⟩ := placed
  unfold Assembly.step
  simp only at fits reads inside ⊢
  cases form with
  | leaf content =>
    obtain ⟨placed, place⟩ := inside
    exact fits.add placed (by rw [place]) (by rw [place])
  | literal tag body closing =>
    obtain ⟨place, last, le, tagPlaced, row⟩ := inside
    simp only [last]
    exact fits.add (.element tagPlaced reads.stop_isValid row) place.ge (Nat.le_refl _)
  | opening tag terminator =>
    obtain ⟨tagPlaced, place, le⟩ := inside
    cases terminator with
    | selfClose =>
      exact fits.add (.element tagPlaced reads.stop_isValid le) place.ge (Nat.le_refl _)
    | missing =>
      refine fits.add (.element tagPlaced tagPlaced.fits.stop_isValid ?_) place.ge le
      exact Nat.le_refl tag.span.stop
    | close =>
      refine ⟨⟨tagPlaced, le, reads.stop_isValid, Nat.le_refl _⟩, ?_⟩
      show assembly.Fits source tag.span.start
      rwa [place]
  | closing tag =>
    obtain ⟨tagPlaced, rfl⟩ := inside
    have kept : (assembly.add (.text ⟨text, tag.span⟩)).Fits source tag.span.stop :=
      fits.add (.text reads) (Nat.le_refl _) (Nat.le_refl _)
    simp only
    split
    · exact kept
    · split
      · exact fits.close tagPlaced
      · exact kept

/-! ### Elements that are left open, and elements that nest too deeply -/

/-- **Elements that are still open at the end are placed up to their last contents.** -/
theorem finishAll_row {pending contents : List Content} {opened : List OpenElement}
    (rows : OpenRows source contents opened start) (more : ContentRow source start pending stop) :
    Row source 0 ((finishAll pending contents opened).1.map Content.node) stop := by
  induction opened generalizing pending start with
  | nil => exact ContentRow.append rows more
  | cons innermost outer ih =>
    obtain ⟨inner, around⟩ := rows
    have whole : OpenElement.Fits source
        { innermost with contents := pending ++ innermost.contents } stop :=
      ⟨inner.tag, inner.behind, inner.valid, inner.row.append more⟩
    have close : ∀ tag ∈ (none : Option CloseTag), (Node.closeTag tag).IsPlaced source ∧
        stop ≤ tag.span.start ∧ tag.span.stop = stop := fun _ absurd => by cases absurd
    obtain ⟨placed, le⟩ := whole.finish (Nat.le_refl stop) close
    exact ih around (row_singleton placed (Nat.le_refl _) le)

/-- What is left behind an element that is passed over is the end of the pieces. -/
theorem skipElement_suffix (count stop : Nat) (all : List Piece) :
    (skipElement count stop all).rest <:+ all := by
  induction all generalizing count stop with
  | nil => exact List.suffix_refl []
  | cons piece rest ih =>
    unfold skipElement
    simp only
    split
    · exact List.suffix_cons piece rest
    · exact (ih _ _).trans (List.suffix_cons piece rest)

/-- **What is passed over of an element is what the source reads there.** -/
theorem skipElement_reads {all : List Piece} (count : Nat) (run : PieceRun source start all) :
    (⟨start, (skipElement count start all).stop⟩ : Span).Reads source
        (skipElement count start all).source ∧
      PieceRun source (skipElement count start all).stop (skipElement count start all).rest := by
  induction all generalizing count start with
  | nil =>
    obtain rfl : start = source.utf8ByteSize := run
    exact ⟨.empty String.Pos.Raw.isValid_rawEndPos, rfl⟩
  | cons piece rest ih =>
    obtain ⟨rfl, placed, later⟩ := run
    unfold skipElement
    simp only
    split
    · exact ⟨Span.Reads.append placed.reads (.empty placed.reads.stop_isValid), later⟩
    · obtain ⟨reads, left⟩ := ih (openBehind count piece.form) later
      exact ⟨Span.Reads.append placed.reads reads, left⟩

/-! ### Documents -/

/-- **The contents that pieces make up stand in a row** up to the end of the source. -/
theorem assemble_row {all : List Piece} (fits : assembly.Fits source start)
    (run : PieceRun source start all) :
    Row source 0 ((assemble assembly all).1.map Content.node) source.utf8ByteSize := by
  -- The induction is on the pieces that are left; the offset is where the first of them stands.
  induction assembly, all using assemble.induct generalizing start with
  | case1 assembly =>
    obtain rfl : start = source.utf8ByteSize := run
    rw [assemble]
    exact finishAll_row fits (Nat.le_refl _)
  | case2 assembly piece rest deep skipped span =>
    rename_i ih
    obtain ⟨reads, left⟩ := skipElement_reads 0 run
    obtain ⟨rfl, _, _⟩ := run
    rw [assemble, if_pos deep]
    exact ih (fits.add (.text reads) (Nat.le_refl _) (Nat.le_refl _)) left
  | case3 assembly piece rest shallow next found same =>
    rename_i ih
    obtain ⟨rfl, placed, later⟩ := run
    have stepped := fits.step placed
    rw [same] at stepped
    rw [assemble, if_neg shallow, same]
    exact ih stepped later

end Assembling

/-- The tree of a source is that of the whole source. -/
theorem span_parse (tags : LiteralTags) (source : String) :
    (parse tags source).root.span = ⟨0, source.utf8ByteSize⟩ := by
  have whole : Run tags source 0 (tokenize tags source ++ []) := by
    rw [List.append_nil]
    exact .tokenize tags source
  exact congrArg (Span.mk 0) whole.append.1.tiles

/-- **The tree of a source is placed in it**, as the pieces of the source are put together in a
row. -/
theorem placed_parse (tags : LiteralTags) (source : String) :
    (Node.root (parse tags source).root).IsPlaced source := by
  have run := Run.tokenize tags source
  have fresh : Assembly.Fits source ⟨[], []⟩ 0 := Nat.le_refl 0
  have row := assemble_row fresh (pieces_run run)
  have span := span_parse tags source
  refine .of_row ?_ ?_ ?_ fun _ absurd => by cases absurd
  · exact run.isValid
  · show (⟨(parse tags source).root.span.stop⟩ : String.Pos.Raw).IsValid source
    rw [span]
    exact String.Pos.Raw.isValid_rawEndPos
  · show Row source (parse tags source).root.span.start _ (parse tags source).root.span.stop
    rw [span]
    exact row

/-- **Every node of the tree of a source fits the source.** The tree is that of the whole source. At
every node the range lies in the source between boundaries of characters, it holds the ranges of the
children, these stand one behind the other, and the texts that the node keeps are the slices of the
source at their ranges. -/
theorem parse_isPlaced (tags : LiteralTags) (source : String) :
    (parse tags source).root.span = ⟨0, source.utf8ByteSize⟩ ∧
      ∀ node, (Node.root (parse tags source).root).Below node → node.Fits source :=
  ⟨span_parse tags source, placed_parse tags source⟩

end PromptMarkup.Markup

namespace PromptMarkup

theorem Span.touches_of_contains {span : Span} {offset : Nat} (holds : span.contains offset) :
    span.touches offset := by
  simp only [Span.contains, Span.touches, Bool.and_eq_true, decide_eq_true_eq] at holds ⊢
  exact ⟨holds.1, Nat.le_of_lt holds.2⟩

namespace Markup

variable {source : String} {offset : Nat}

/-! ### One step down -/

/-- At most one child of a placed node holds an offset. -/
theorem Node.Fits.eq_of_contains {node first second : Node} (fits : node.Fits source)
    (left : first ∈ node.children) (right : second ∈ node.children)
    (here : first.span.contains offset) (there : second.span.contains offset) :
    first = second := by
  by_contra different
  simp only [Span.contains, Bool.and_eq_true, decide_eq_true_eq] at here there
  have apart := fits.apart_of_ne left right different
  omega

/-- **A path goes on to the child that holds the offset.** -/
theorem Node.childAt?_eq_some_of_contains {node child : Node} (fits : node.Fits source)
    (member : child ∈ node.children) (holds : child.span.contains offset) :
    node.childAt? offset = some child := by
  obtain ⟨other, found⟩ : ∃ other,
      (node.children.find? fun child => child.span.contains offset) = some other :=
    Option.isSome_iff_exists.mp (List.find?_isSome.mpr ⟨child, member, holds⟩)
  have there := List.find?_some (p := fun child : Node => child.span.contains offset) found
  obtain rfl := fits.eq_of_contains (List.mem_of_find?_eq_some found) member there holds
  rw [Node.childAt?, found, Option.some_or]

theorem Node.touches_of_childAt? {node child : Node} (found : node.childAt? offset = some child) :
    child.span.touches offset := by
  rcases Option.or_eq_some_iff.mp found with here | ⟨_, here⟩
  · exact Span.touches_of_contains
      (List.find?_some (p := fun child : Node => child.span.contains offset) here)
  · exact List.find?_some (p := fun child : Node => child.span.touches offset) here

/-- **A path stops where no child is at the offset**, not even with its end. -/
theorem Node.childAt?_eq_none_iff {node : Node} :
    node.childAt? offset = none ↔ ∀ child ∈ node.children, ¬ child.span.touches offset := by
  constructor
  · intro missing
    exact List.find?_eq_none.mp (Option.or_eq_none_iff.mp missing).2
  · intro outside
    refine Option.or_eq_none_iff.mpr ⟨?_, List.find?_eq_none.mpr outside⟩
    exact List.find?_eq_none.mpr fun child member holds =>
      outside child member (Span.touches_of_contains holds)

/-! ### Paths -/

theorem Node.descend_of_childAt? {node child : Node} (found : node.childAt? offset = some child) :
    node.descend offset = node :: child.descend offset := by
  rw [Node.descend]
  split <;> simp_all

/-- A path begins with the node that it goes down from. -/
theorem Node.exists_descend (node : Node) (offset : Nat) :
    ∃ below, node.descend offset = node :: below := by
  rw [Node.descend]
  split
  · exact ⟨_, rfl⟩
  · exact ⟨[], rfl⟩

/-- **Every node of a path is a child of the one in front of it.** -/
theorem Node.isChain_descend (node : Node) (offset : Nat) :
    (node.descend offset).IsChain fun parent child => child ∈ parent.children := by
  fun_induction Node.descend node offset with
  | case1 node child found ih =>
    obtain ⟨below, same⟩ := child.exists_descend offset
    rw [same] at ih ⊢
    exact .cons_cons (Node.childAt?_mem found) ih
  | case2 node missing => exact .singleton node

/-- **Every node of a path is at the offset** if the first one is. -/
theorem Node.touches_of_mem_descend {top node : Node} (touches : top.span.touches offset)
    (member : node ∈ top.descend offset) : node.span.touches offset := by
  fun_induction Node.descend top offset with
  | case1 top child found ih =>
    rcases List.mem_cons.mp member with rfl | later
    · exact touches
    · exact ih (Node.touches_of_childAt? found) later
  | case2 top missing =>
    rwa [List.mem_singleton.mp member]

/-- **The last node of a path has no child at the offset.** -/
theorem Node.childAt?_getLast_descend {top last : Node}
    (ending : last ∈ (top.descend offset).getLast?) : last.childAt? offset = none := by
  fun_induction Node.descend top offset with
  | case1 top child found ih =>
    obtain ⟨below, same⟩ := child.exists_descend offset
    rw [same, List.getLast?_cons_cons, ← same] at ending
    exact ih ending
  | case2 top missing =>
    obtain rfl : top = last := Option.some.inj ending
    exact missing

/-- **Every node below a placed one that holds the offset is on the path.** -/
theorem Node.IsPlaced.mem_descend {top node : Node} (placed : top.IsPlaced source)
    (below : top.Below node) (holds : node.span.contains offset) :
    node ∈ top.descend offset := by
  -- The induction is on the way down to the node, which the path follows step by step.
  induction below using Relation.ReflTransGen.head_induction_on with
  | refl =>
    obtain ⟨rest, same⟩ := node.exists_descend offset
    exact same ▸ List.mem_cons_self
  | @head parent child member later ih =>
    have inside := placed.child member
    have around : child.span.contains offset := by
      obtain ⟨start, stop⟩ := inside.within later
      simp only [Span.contains, Bool.and_eq_true, decide_eq_true_eq] at holds ⊢
      omega
    rw [Node.descend_of_childAt? (Node.childAt?_eq_some_of_contains placed.fits member around)]
    exact List.mem_cons_of_mem _ (ih inside)

/-! ### Documents -/

/-- A path leads from a node to the innermost node at an offset. -/
structure Node.IsInnermostPath (top : Node) (offset : Nat) (path : List Node) : Prop where
  head : path.head? = some top
  /-- Every node is a child of the one in front of it. -/
  chain : path.IsChain fun parent child => child ∈ parent.children
  touches : ∀ node ∈ path, node.span.touches offset
  /-- No node that holds the offset is passed by. -/
  complete : ∀ node, top.Below node → node.span.contains offset → node ∈ path
  /-- Nothing further down is at the offset, not even with its end. -/
  last : ∀ node ∈ path.getLast?, ∀ child ∈ node.children, ¬ child.span.touches offset

/-- **The path of an offset leads to the innermost node there**, from the document on and for every
offset up to the end of the source. -/
theorem pathAt_innermost (tags : LiteralTags) (source : String) (offset : Nat)
    (inside : offset ≤ source.utf8ByteSize) :
    (Node.root (parse tags source).root).IsInnermostPath offset
      ((Node.root (parse tags source).root).pathAt offset) := by
  have touches : (Node.root (parse tags source).root).span.touches offset := by
    show (parse tags source).root.span.touches offset
    rw [span_parse]
    simpa [Span.touches] using inside
  rw [Node.pathAt, if_pos touches]
  refine ⟨?_, Node.isChain_descend _ _, fun node => Node.touches_of_mem_descend touches,
    fun node => (placed_parse tags source).mem_descend, fun last ending => ?_⟩
  · obtain ⟨below, same⟩ := (Node.root (parse tags source).root).exists_descend offset
    rw [same, List.head?_cons]
  · exact Node.childAt?_eq_none_iff.mp (Node.childAt?_getLast_descend ending)

/-- A document that ends inside two elements, the inner one without contents. -/
def unclosedSource : String := "<p id=''>\x7b\x7bx\x7d\x7d<b>"

theorem pathAt_innermost_unclosed :
    14 ≤ unclosedSource.utf8ByteSize ∧
      (Node.root (parse .standard unclosedSource).root).IsInnermostPath 14
        ((Node.root (parse .standard unclosedSource).root).pathAt 14) :=
  ⟨by decide, pathAt_innermost .standard unclosedSource 14 (by decide)⟩

end Markup

end PromptMarkup
