/-
**Where the pieces of a document come from.**

Pieces that are marked as copies stay copies whatever a layout does to them, as the range of a part
of a copy is the part of its range. So the source map of a document points into the source.

What a document becomes stands at nodes of its source, and what is exact in it is a text of the
source. A layout cuts texts into parts, and writes text of its own at the ranges of blocks. So every
piece of a document has the range of a node or a part of the range of a text, and a piece that is
marked as a copy is copied from a text.

* `Span.LiesIn`, `Piece.Fits`: a range inside of a source, and a piece that says the truth about its
  range;
* `fitting`: parts of such pieces are such pieces;
* `contiguous_segmentsFrom`: segments stand one directly behind the other;
* `writeMapped_ranges`: the source map of a document, and the pieces behind it;
* `Region.Stems`, `Shown.stems`: regions at the nodes of a tree;
* `Block.below_region`: the blocks below a block as regions;
* `Span.IsCutFrom`, `Span.Stems`: a part of the range of a text, and a range of a tree;
* `Piece.Stems`, `stemming`: pieces at the ranges of a tree, and their parts;
* `stems_compile`: the pieces of a compiled document;
* `Span.Stems.holds_text`: a range of a tree that meets a text holds it or is a part of it.
-/

import PromptMarkup.Proofs.Block.DocumentRanges
import PromptMarkup.Proofs.Markup.TreeTiling
import PromptMarkup.Proofs.Output.FragmentText

namespace PromptMarkup

section Ranges

open Markup (Contiguous)
open Text (byteLength byteLength_append byteLength_toList byteLength_pos)

variable {source : String}

/-! ### Pieces -/

/-- A range lies inside of a source. -/
def Span.LiesIn (source : String) (span : Span) : Prop :=
  span.start ≤ span.stop ∧ span.stop ≤ source.utf8ByteSize

/-- A range that a source reads anything at lies inside of it. -/
theorem Span.Reads.liesIn {span : Span} {text : String} (reads : span.Reads source text) :
    span.LiesIn source := by
  refine ⟨reads.start_le_stop, ?_⟩
  obtain ⟨before, after, whole, rfl⟩ := reads
  rw [← byteLength_toList, whole, byteLength_append, byteLength_append]
  exact Nat.le_add_right _ _

/-- The range of a piece lies inside of a source, and a piece that is marked as a copy is one. -/
structure Piece.Fits (source : String) (piece : Piece) : Prop where
  place : piece.span.LiesIn source
  reads : piece.exact = true → piece.span.Reads source piece.text

/-- The bytes of a copy are those of its range. -/
theorem Piece.Fits.isLinear_eq {piece : Piece} (fits : piece.Fits source) :
    piece.isLinear = piece.exact := by
  unfold Piece.isLinear
  cases exact : piece.exact with
  | false => rfl
  | true =>
    have stop := (fits.reads exact).stop_eq
    rw [Bool.true_and, decide_eq_true_iff, Span.length, Piece.size]
    omega

/-- **A part of a copy is a copy** of the part of its range. -/
theorem Piece.Fits.slice {piece : Piece} {front chars back : List Char} (fits : piece.Fits source)
    (parts : piece.text.toList = front ++ chars ++ back) :
    (piece.slice (byteLength front) chars).Fits source := by
  unfold Piece.slice
  simp only [fits.isLinear_eq]
  cases exact : piece.exact with
  | false => exact ⟨fits.place, fun copy => Bool.noConfusion copy⟩
  | true =>
    have reads := (fits.reads exact).inside parts
    exact ⟨reads.liesIn, fun _ => reads⟩

/-- To fit a source is a property that parts of pieces inherit. -/
def fitting (source : String) : PieceLaw (Span.LiesIn source) where
  holds := Piece.Fits source
  attaches := True
  place fits := fits.place
  synthetic _ place := ⟨place, fun copy => Bool.noConfusion copy⟩
  attached _ _ _ place := ⟨place, fun copy => Bool.noConfusion copy⟩
  slice _ _ _ fits parts := fits.slice parts

/-! ### Segments -/

/-- **Segments stand one directly behind the other**, from the first byte of the text to its end. -/
theorem contiguous_segmentsFrom (offset : Nat) (fragment : Fragment) :
    Contiguous offset ((SourceMap.segmentsFrom offset fragment).map Segment.output)
      (offset + byteLength fragment.chars) := by
  induction fragment generalizing offset with
  | nil => rfl
  | cons piece rest ih =>
    unfold SourceMap.segmentsFrom
    rw [Fragment.chars_cons, byteLength_append]
    split
    next empty =>
      rw [String.isEmpty_iff.mp empty, String.toList_empty]
      have later := ih offset
      rwa [← Nat.zero_add (byteLength (Fragment.chars rest))] at later
    next =>
      have later := ih (offset + piece.size)
      rw [Nat.add_assoc] at later
      exact ⟨rfl, later⟩

/-- Each segment is the text of a piece, and is not empty. -/
theorem mem_segmentsFrom {offset : Nat} {fragment : Fragment} {segment : Segment}
    (member : segment ∈ SourceMap.segmentsFrom offset fragment) :
    segment.output.start < segment.output.stop ∧
      ∃ piece ∈ fragment, segment.input = piece.span := by
  induction fragment generalizing offset with
  | nil => cases member
  | cons piece rest ih =>
    unfold SourceMap.segmentsFrom at member
    split at member
    next =>
      obtain ⟨some, other, inside, same⟩ := ih member
      exact ⟨some, other, List.mem_cons_of_mem _ inside, same⟩
    next some =>
      rcases List.mem_cons.mp member with rfl | later
      · refine ⟨?_, piece, List.mem_cons_self, rfl⟩
        have size : 0 < piece.size := byteLength_pos fun none => some <|
          String.isEmpty_iff.mpr (String.toList_eq_nil_iff.mp none)
        exact Nat.lt_add_of_pos_right size
      · obtain ⟨some, other, inside, same⟩ := ih later
        exact ⟨some, other, List.mem_cons_of_mem _ inside, same⟩

/-! ### Documents -/

/-- **The plain text of a document with its source map**, if the ranges of all blocks lie inside of
a source and exact texts are what it reads at theirs. The segments are not empty and stand one
directly behind the other from the first byte of the text to its end, they point into the source,
and every piece of the text that is marked as a copy in the end is what the source reads at its
range. -/
theorem writeMapped_ranges (source : String) (document : Block)
    (ranges : ∀ block ∈ document.walk,
      block.span.start ≤ block.span.stop ∧ block.span.stop ≤ source.utf8ByteSize)
    (texts : ∀ block ∈ document.walk, ∀ value, block.kind = .text value true →
      block.span.Reads source value) :
    let output := writeMapped document
    let segments := output.sourceMap.segments
    Contiguous 0 (segments.map Segment.output) output.text.utf8ByteSize ∧
      (∀ segment ∈ segments, segment.output.start < segment.output.stop ∧
        segment.input.start ≤ segment.input.stop ∧
        segment.input.stop ≤ source.utf8ByteSize) ∧
      ∀ piece ∈ layDocument .plain document, piece.exact = true →
        piece.span.Reads source piece.text := by
  intro output segments
  have fits : (fitting source).Covers (layDocument .plain document) := by
    refine PieceLaw.covers_layDocument (fun _ => trivial) document fun block member => ?_
    refine ⟨ranges block member, fun piece found => ?_⟩
    unfold Block.piece? at found
    split at found
    next value exact kind =>
      obtain rfl := Option.some.inj found
      refine ⟨ranges block member, fun copy => texts block member value ?_⟩
      rw [kind, show exact = true from copy]
    next => cases found
  refine ⟨?_, fun segment member => ?_, fun piece member => (fits piece member).reads⟩
  · have tiled := contiguous_segmentsFrom 0 (layDocument .plain document)
    rw [Nat.zero_add, ← Fragment.toList_text, byteLength_toList] at tiled
    exact tiled
  · obtain ⟨some, piece, inside, same⟩ := mem_segmentsFrom member
    exact ⟨some, same ▸ (fits piece inside).place⟩

theorem writeMapped_ranges_collapsed :
    let source := "<p>é,  ü</p>"
    let text : Block := ⟨.text "é,  ü" true, .markdown, none, .filter, [], ⟨3, 10⟩⟩
    let document : Block := ⟨.paragraph, .markdown, none, .filter, [text], ⟨0, 14⟩⟩
    let segments := (writeMapped document).sourceMap.segments
    segments = [⟨⟨3, 6⟩, ⟨0, 3⟩⟩, ⟨⟨6, 8⟩, ⟨3, 4⟩⟩, ⟨⟨8, 10⟩, ⟨4, 6⟩⟩] ∧
      ∀ segment ∈ segments, segment.input.stop ≤ source.utf8ByteSize := by
  intro source text document segments
  have blocks : ∀ block ∈ document.walk, block = document ∨ block = text := by
    intro block member
    simpa [document, text, Block.walk, Block.walkAll] using member
  have output := writeMapped_ranges source document (fun block member => ?_)
    fun block member value kind => ?_
  · exact ⟨by cbv, fun segment member => (output.2.1 segment member).2.2⟩
  · rcases blocks block member with rfl | rfl <;> decide
  · rcases blocks block member with rfl | rfl
    · cases kind
    · obtain rfl : "é,  ü" = value := by injection kind
      exact ⟨"<p>".toList, "</p>".toList, by decide, by decide⟩

end Ranges

open Markup
open Text (byteLength byteLength_append)

variable {source : String} {top : Node}

/-! ### Regions -/

/-- A region has the range of a node of a tree. If it is exact, it is a text of the tree. -/
structure Region.Stems (top : Node) (region : Region) : Prop where
  place : ∃ node, top.Below node ∧ region.span = node.span
  text : ∀ value ∈ region.exact, top.Below (.text ⟨value, region.span⟩)

/-- A region that is not exact needs only the range of a node. -/
theorem Region.Stems.inexact {span : Span} {node : Node} (below : top.Below node)
    (same : span = node.span) (parts : List Region) : Region.Stems top ⟨span, none, parts⟩ :=
  ⟨⟨node, below, same⟩, fun _ absurd => by cases absurd⟩

/-- What has the range of a node all over stems from the node. -/
theorem Region.IsAnchored.stems {span : Span} {region : Region} {node : Node}
    (anchored : region.IsAnchored span) (below : top.Below node) (place : span = node.span) :
    region.Throughout (Region.Stems top) := by
  intro other inside
  obtain ⟨same, inexact⟩ := anchored other inside
  refine ⟨⟨node, below, same.trans place⟩, fun value exact => ?_⟩
  rw [inexact] at exact
  cases exact

section Contents

variable {registry : Registry} {items : Bool} {contents : List Content} {regions : List Region}

/-- **Regions that stand for contents of a tree stem from it**, and so does everything in them. -/
theorem Shown.stems (shown : Shown registry items contents regions)
    (below : ∀ content ∈ contents, top.Below content.node) :
    ∀ region ∈ regions, region.Throughout (Region.Stems top) := by
  induction shown with
  | nothing => exact List.forall_mem_nil _
  | skipped content _ ih => exact ih (List.forall_mem_cons.mp below).2
  | text node _ ih =>
    obtain ⟨here, later⟩ := List.forall_mem_cons.mp below
    refine List.forall_mem_cons.mpr ⟨.intro ⟨⟨_, here, rfl⟩, ?_⟩ (List.forall_mem_nil _), ih later⟩
    intro value exact
    obtain rfl := Option.mem_some.mp exact
    exact here
  | template node _ ih =>
    obtain ⟨here, later⟩ := List.forall_mem_cons.mp below
    exact List.forall_mem_cons.mpr ⟨.intro (.inexact here rfl _) (List.forall_mem_nil _), ih later⟩
  | element _ _ inside ih =>
    obtain ⟨here, later⟩ := List.forall_mem_cons.mp below
    exact List.forall_mem_cons.mpr ⟨.intro (.inexact here rfl _) (inside (below_contents here)),
      ih later⟩
  | included _ anchored _ ih =>
    exact List.forall_mem_cons.mpr ⟨anchored.stems (below _ List.mem_cons_self) rfl, ih below⟩
  | repeated _ _ ih =>
    exact ih (List.forall_mem_cons.mpr ⟨below _ List.mem_cons_self, below⟩)
  | item _ _ ih =>
    obtain ⟨here, later⟩ := List.forall_mem_cons.mp (ih below)
    obtain ⟨node, above, same⟩ := here.here.place
    exact List.forall_mem_cons.mpr ⟨.intro (.inexact above same _)
      (List.forall_mem_singleton.mpr here), later⟩

theorem Region.StandsFor.stems {root : Root} {region : Region}
    (stands : region.StandsFor registry items root) :
    region.Throughout (Region.Stems (.root root)) := by
  rcases stands with sole | ⟨parts, rfl, shown⟩
  · exact sole.stems (below_root root) region List.mem_cons_self
  · exact .intro (.inexact .refl rfl _) (shown.stems (below_root root))

end Contents

/-! ### Blocks -/

mutual

/-- **The regions of the blocks in a block are below its region.** -/
theorem Block.below_region (block : Block) :
    ∀ inner ∈ block.walk, block.region.Below inner.region := by
  obtain ⟨kind, presentation, speaker, spacing, children, span⟩ := block
  refine List.forall_mem_cons.mpr ⟨.refl, fun inner member => ?_⟩
  obtain ⟨part, inside, below⟩ := exists_below_blockRegions children inner member
  exact .head inside below

theorem exists_below_blockRegions (blocks : List Block) :
    ∀ inner ∈ Block.walkAll blocks, ∃ part ∈ blockRegions blocks, part.Below inner.region :=
  match blocks with
  | [] => List.forall_mem_nil _
  | block :: rest => fun inner member => by
    rcases List.mem_append.mp member with here | later
    · exact ⟨_, List.mem_cons_self, block.below_region inner here⟩
    · obtain ⟨part, inside, below⟩ := exists_below_blockRegions rest inner later
      exact ⟨part, List.mem_cons_of_mem _ inside, below⟩

end

theorem Block.region_exact (block : Block) : block.region.exact = block.kind.exactText? := by
  cases block
  rfl

/-! ### Ranges of a tree -/

theorem Span.contains_iff {span : Span} {offset : Nat} :
    span.contains offset = true ↔ span.start ≤ offset ∧ offset < span.stop := by
  simp [Span.contains]

/-- A part of the range of a text of a tree. -/
structure Span.IsCutFrom (top : Node) (text : TextNode) (span : Span) : Prop where
  below : top.Below (.text text)
  inside : text.span.start ≤ span.start ∧ span.stop ≤ text.span.stop

/-- The range of a node of a tree, or a part of the range of a text. -/
def Span.Stems (top : Node) (span : Span) : Prop :=
  (∃ node, top.Below node ∧ span = node.span) ∨ ∃ text, span.IsCutFrom top text

/-- Nothing is below a text. -/
theorem Markup.TextNode.eq_of_below {text : TextNode} {node : Node}
    (below : (Node.text text).Below node) : node = .text text := by
  rcases Relation.ReflTransGen.cases_head below with rfl | ⟨child, member, _⟩
  · rfl
  · cases member

/-- **A range of a tree that shares a byte with a text holds the text or is a part of it.** -/
theorem Span.Stems.holds_text {span : Span} {text : TextNode} {offset : Nat}
    (stems : span.Stems top) (placed : top.IsPlaced source) (below : top.Below (.text text))
    (around : span.contains offset) (meets : text.span.contains offset) :
    (span.start ≤ text.span.start ∧ text.span.stop ≤ span.stop) ∨ span.IsCutFrom top text := by
  rw [Span.contains_iff] at around meets
  -- As nothing is below a text, a node that is not apart from it is above it.
  have above : ∀ node : Node, top.Below node → node.span.start ≤ offset →
      offset < node.span.stop → node.Below (.text text) := by
    intro node inside start stop
    rcases placed.comparable inside below with within | beneath | before | behind
    · exact within
    · obtain rfl := TextNode.eq_of_below beneath
      exact .refl
    · change node.span.stop ≤ text.span.start at before
      omega
    · change text.span.stop ≤ node.span.start at behind
      omega
  rcases stems with ⟨node, inside, rfl⟩ | ⟨other, cut⟩
  · refine .inl ?_
    have within := above node inside around.1 around.2
    exact Node.IsPlaced.within (fun inner later => placed inner (inside.trans later)) within
  · refine .inr ⟨below, ?_⟩
    have edges := cut.inside
    have within := above (.text other) cut.below (Nat.le_trans edges.1 around.1)
      (Nat.lt_of_lt_of_le around.2 edges.2)
    obtain rfl : text = other := Node.text.inj (TextNode.eq_of_below within)
    exact edges

/-! ### Pieces -/

/-- A piece fits its source and has a range of a tree. If it is marked as a copy, it is copied from
a text of the tree. -/
structure Piece.Stems (source : String) (top : Node) (piece : Piece) : Prop where
  fits : piece.Fits source
  place : piece.span.Stems top
  text : piece.exact = true → ∃ text, piece.span.IsCutFrom top text

/-- A piece that is not a copy needs only a range of the tree. -/
theorem Piece.Stems.inexact {piece : Piece} (inexact : piece.exact = false)
    (place : piece.span.LiesIn source ∧ piece.span.Stems top) : piece.Stems source top := by
  have none : piece.exact ≠ true := by simp [inexact]
  exact ⟨⟨place.1, fun copy => absurd copy none⟩, place.2, fun copy => absurd copy none⟩

/-- A part of a copy is cut from the same text. -/
theorem Piece.Stems.slice {piece : Piece} {front chars back : List Char}
    (stems : piece.Stems source top) (parts : piece.text.toList = front ++ chars ++ back) :
    (piece.slice (byteLength front) chars).Stems source top := by
  have fits := stems.fits.slice parts
  cases exact : piece.exact with
  | false =>
    have same : (piece.slice (byteLength front) chars).span = piece.span := by
      simp [Piece.slice, Piece.ofText, Piece.isLinear, exact]
    exact .inexact exact ⟨fits.place, same ▸ stems.place⟩
  | true =>
    obtain ⟨text, below, inside⟩ := stems.text exact
    have stop := (stems.fits.reads exact).stop_eq
    rw [parts, byteLength_append, byteLength_append] at stop
    have cut : (piece.slice (byteLength front) chars).span.IsCutFrom top text := by
      refine ⟨below, ?_⟩
      simp only [Piece.slice, Piece.ofText, stems.fits.isLinear_eq, exact, if_true]
      omega
    exact ⟨fits, .inr ⟨text, cut⟩, fun _ => ⟨text, cut⟩⟩

/-- To stem from a tree is a property that parts of pieces inherit. -/
def stemming (source : String) (top : Node) :
    PieceLaw fun span => span.LiesIn source ∧ span.Stems top where
  holds := Piece.Stems source top
  attaches := True
  place stems := ⟨stems.fits.place, stems.place⟩
  synthetic _ place := .inexact rfl place
  attached _ _ _ place := .inexact rfl place
  slice _ _ _ stems parts := stems.slice parts

/-! ### Documents -/

/-- A node of a placed tree lies in the source. -/
theorem Markup.Node.Fits.liesIn {node : Node} (fits : node.Fits source) :
    node.span.LiesIn source := ⟨fits.ordered, fits.stop_le⟩

/-- A block with a region that stems from a placed tree has a range of the tree, and its text is
copied from one of the tree if it is exact. -/
theorem admits_of_stems {block : Block} (placed : top.IsPlaced source)
    (stems : block.region.Stems top) : (stemming source top).Admits block := by
  obtain ⟨⟨node, below, same⟩, text⟩ := stems
  rw [block.region_span] at same text
  rw [block.region_exact] at text
  have place : block.span.LiesIn source ∧ block.span.Stems top := by
    refine ⟨?_, .inl ⟨node, below, same⟩⟩
    rw [same]
    exact (placed node below).liesIn
  refine ⟨place, fun piece found => ?_⟩
  unfold Block.piece? at found
  split at found
  next value exact kind =>
    obtain rfl := Option.some.inj found
    cases exact with
    | false => exact .inexact rfl place
    | true =>
      have copied : top.Below (.text ⟨value, block.span⟩) := text value (by rw [kind]; rfl)
      have reads : block.span.Reads source value := (placed _ copied).reads _ List.mem_cons_self
      refine ⟨⟨place.1, fun _ => reads⟩, place.2, fun _ => ⟨_, copied, ?_⟩⟩
      exact ⟨Nat.le_refl _, Nat.le_refl _⟩
  next => cases found

section Compilations

variable (options : CompileOptions) (source : String) (scope : Scope)

/-- A compiled document stands for the contents of its source. -/
theorem standsFor_compile :
    ((Prompt.ofSource options source).compile scope).document.region.StandsFor
      options.settings.registry true (Prompt.ofSource options source).parsed.root := by
  let settings := options.settings
  let root := (Prompt.ofSource options source).parsed.root
  have shows : Evaluate.Shows settings.registry root.children
      (Evaluate.evaluateFile settings (options.loader.depthLimit + 1) root) :=
    Evaluate.shows_evaluateFile options.loader.depthLimit root
  obtain ⟨shown, _⟩ :=
    shows (.start settings scope options.loader settings.registry) (.refl _)
  obtain ⟨stands, document⟩ := documentNode_standsFor shown
  have solid := stands.parts_isSolid (placed_parse _ source) fun _ below => parse_isBroad _ _ below
  exact stands.lower (becomes_presentDocument document solid)

/-- **The pieces of a compiled document stem from the tree of its source.** -/
theorem stems_compile (rendition : Rendition) :
    (stemming source (.root (Prompt.ofSource options source).parsed.root)).Covers
      (layDocument rendition ((Prompt.ofSource options source).compile scope).document) := by
  have stems := (standsFor_compile options source scope).stems
  refine PieceLaw.covers_layDocument (fun _ => trivial) _ fun inner member => ?_
  exact admits_of_stems (placed_parse _ source) (stems _ (Block.below_region _ inner member))

end Compilations

end PromptMarkup
