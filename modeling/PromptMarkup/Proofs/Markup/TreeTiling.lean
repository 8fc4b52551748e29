/-
**Trees without errors keep all of the source.**

Whatever a reader of the parser passes over it reports as an error. A tag that is free of errors
therefore goes on to its closing bracket without a gap, and so does all of a literal element. When
the parser reports no error at all, the contents of the document stand one directly behind the other
from its first byte to its last. So do the contents of every element, between the closing bracket
of its open tag and its close tag. The tags, the brackets and the other nodes in their order are
then the source.

* `hasErrors_append`, `hasErrors_cons`: errors among problems put together;
* `readAttribute_run`, `readInside_ends`: a tag without errors ends where its bracket begins;
* `PieceForm.IsWhole`: there is nothing but brackets between the parts of a piece;
* `readPiece_isWhole`, `pieces_isWhole`: pieces without errors are whole;
* `Contiguous`: ranges that stand one directly behind the other;
* `Element.IsWhole`: there is no gap in an element;
* `Assembly.IsTight`, `Assembly.IsTight.step`: the invariant of an assembly, and what one piece
  without errors preserves;
* `assemble_contiguous`: what all pieces make up;
* `contentsSource`: tags, brackets and leaves one behind the other;
* `parse_isWhole`: a tree without errors has no gaps, and it spells the source.
-/

import PromptMarkup.Proofs.Markup.TreePlaces

namespace PromptMarkup

/-! ### Errors -/

@[simp] theorem hasErrors_append (first second : List Diagnostic) :
    hasErrors (first ++ second) = (hasErrors first || hasErrors second) := List.any_append

@[simp] theorem hasErrors_cons (diagnostic : Diagnostic) (rest : List Diagnostic) :
    hasErrors (diagnostic :: rest) = (diagnostic.isError || hasErrors rest) := List.any_cons

end PromptMarkup

namespace PromptMarkup.Markup

section Pieces

variable {tags : LiteralTags} {source : String} {start : Nat} {tokens rest : List Token}

/-- A problem is an error if its severity says so. -/
@[simp] theorem isError_report (problem : Problem) (span : Span) :
    (problem.report span).isError = decide (problem.severity = .error) := rfl

/-! ### Tags -/

/-- A value that is missing is an error. -/
theorem readValue_isSome {key : String} {named : Span}
    (clean : hasErrors (readValue key named tokens).problems = false) :
    (readValue key named tokens).node.isSome := by
  have missing : hasErrors [(Problem.missingValue key).report named] = true := rfl
  unfold readValue at clean ⊢
  split
  · exact absurd clean (by simp [missing])
  · simp only at clean
    split
    case h_6 => simp_all
    all_goals rfl

/-- **A run goes on where an attribute without errors ends.** -/
theorem readAttribute_run {key : Token} (run : Run tags source key.span.stop tokens)
    (clean : hasErrors (readAttribute key tokens).problems = false) :
    Run tags source (readAttribute key tokens).node.span.stop (readAttribute key tokens).rest := by
  obtain ⟨blank, le, inner⟩ := run.skipKind_beyond .whitespace 0
  unfold readAttribute at clean ⊢
  rcases inner.takeKind .equals with same | ⟨equals, after, same, _, place, mark, behind⟩
  · rw [same]
    exact run
  · rw [same] at clean ⊢
    obtain ⟨next, ge, left⟩ := behind.skipKind_beyond .whitespace 0
    simp only at clean ⊢
    obtain ⟨value, found⟩ := Option.isSome_iff_exists.mp (readValue_isSome clean)
    obtain ⟨written, _⟩ := readValue_stands key.text ⟨key.span.start, equals.span.stop⟩ left
    have stands := written value found
    rw [found, Option.elim_some, ← span_valueNode]
    exact stands.run

/-- The bracket that ends a tag. -/
def Terminator.mark : Terminator → Option String
  | close => some ">"
  | selfClose => some "/>"
  | missing => none

/-- The bracket that ends a tag stands directly behind it, with a run of tokens behind that. -/
def Terminator.Ends (tags : LiteralTags) (source : String) (start : Nat) (terminator : Terminator)
    (rest : List Token) : Prop :=
  ∀ mark ∈ terminator.mark, ∃ stop,
    (⟨start, stop⟩ : Span).Reads source mark ∧ Run tags source stop rest

/-- A token that is the bracket of a terminator. -/
theorem Terminator.ends_of_run {terminator : Terminator} {token : Token}
    (run : Run tags source start (token :: rest))
    (fixed : terminator.mark = token.kind.fixedText) : terminator.Ends tags source start rest := by
  intro mark found
  obtain ⟨rfl, sound, behind⟩ := run.uncons
  have text : token.text = mark := sound.fixed mark (by rw [← fixed]; exact found)
  exact ⟨token.span.stop, text ▸ sound.reads, behind⟩

/-- **The inside of a tag without errors goes on to the closing bracket.** -/
theorem readInside_ends (name : String) (run : Run tags source start tokens)
    (clean : hasErrors (readInside name start tokens).problems = false) :
    (readInside name start tokens).node.terminator.Ends tags source
      (readInside name start tokens).node.stop (readInside name start tokens).rest := by
  fun_induction readInside name start tokens with
  | case1 stop => exact fun mark absurd => by cases absurd
  | case2 stop token rest kind ih =>
    obtain ⟨rfl, sound, behind⟩ := run.uncons
    exact ih behind clean
  | case3 stop token rest kind first others ih =>
    simp only [hasErrors_append, Bool.or_eq_false_iff] at clean
    obtain ⟨rfl, sound, behind⟩ := run.uncons
    exact ih (readAttribute_run behind clean.1) clean.2
  | case4 stop token rest kind => exact Terminator.ends_of_run run (by rw [kind]; rfl)
  | case5 stop token rest kind => exact Terminator.ends_of_run run (by rw [kind]; rfl)
  | case6 stop token rest kind template others ih =>
    simp [Problem.severity] at clean
  | case7 stop token rest kind others ih | case8 stop token rest kind others ih
  | case9 stop token rest kind others ih | case10 stop token rest kind others ih =>
    simp [Problem.severity] at clean
  | case11 stop token rest => exact fun mark absurd => by cases absurd

/-- **The closing bracket of an open tag without errors stands directly behind the tag.** -/
theorem readOpenTag_ends {bracket : Token} (fixed : bracket.kind.fixedText = some "<")
    (sound : bracket.IsSound source) (run : Run tags source bracket.span.stop tokens)
    (clean : hasErrors (readOpenTag bracket tokens).problems = false) :
    (readOpenTag bracket tokens).node.2.Ends tags source
      (readOpenTag bracket tokens).node.1.span.stop (readOpenTag bracket tokens).rest := by
  have size : bracket.span.stop = bracket.span.start + 1 := sound.stop_eq fixed
  obtain ⟨_, _, behind⟩ := run.optional .identifier
  unfold readOpenTag at clean ⊢
  simp only [← size] at clean ⊢
  exact readInside_ends _ behind clean

/-! ### Pieces -/

/-- Some content is not an element. -/
def Content.isLeaf : Content → Bool
  | element _ => false
  | _ => true

/-- There is nothing but the closing bracket of the open tag between the parts of a piece. -/
def PieceForm.IsWhole (source : String) (span : Span) : PieceForm → Prop
  | opening tag terminator =>
    ∀ mark ∈ terminator.mark, (⟨tag.span.stop, span.stop⟩ : Span).Reads source mark
  | literal tag body close =>
    (⟨tag.span.stop, body.span.start⟩ : Span).Reads source ">" ∧
      ∀ tag ∈ close, body.span.stop = tag.span.start
  | closing _ => True
  | leaf content => content.isLeaf

/-- **The body of a literal element stands between its tags without a gap.** -/
theorem readLiteral_isWhole {tag : OpenTag} {span : Span}
    (bracket : (⟨tag.span.stop, start⟩ : Span).Reads source ">")
    (run : Run tags source start tokens) :
    (readLiteral tag start tokens).node.IsWhole source span := by
  obtain ⟨place, reads, behind⟩ := run.optional .textContent
  have node : (takeKind .textContent tokens).1.elim ⟨"", ⟨start, start⟩⟩
      (fun token => (⟨token.text, token.span⟩ : TextNode)) =
        ⟨Run.optionalText (takeKind .textContent tokens).1,
          Run.optionalSpan start (takeKind .textContent tokens).1⟩ := by
    cases (takeKind .textContent tokens).1 <;> rfl
  unfold readLiteral
  simp only [node]
  generalize Run.optionalSpan start (takeKind .textContent tokens).1 = body at *
  rcases behind.takeKind .closingOpenBracket with
    same | ⟨sign, after, same, kind, spot, sound, later⟩
  · rw [same]
    exact ⟨place ▸ bracket, fun _ absurd => by cases absurd⟩
  · rw [same]
    refine ⟨place ▸ bracket, fun close member => ?_⟩
    obtain rfl := Option.mem_some.mp member
    exact spot.symm

/-- **An open tag without errors is whole**, with all of a literal element. -/
theorem readOpening_isWhole {bracket : Token} {stop : Nat}
    (fixed : bracket.kind.fixedText = some "<") (sound : bracket.IsSound source)
    (run : Run tags source bracket.span.stop tokens)
    (left : Run tags source stop (readOpening tags bracket tokens).rest)
    (clean : hasErrors (readOpening tags bracket tokens).problems = false) :
    (readOpening tags bracket tokens).node.IsWhole source ⟨start, stop⟩ := by
  obtain ⟨_, _, _, next, le, behind⟩ := readOpenTag_placed fixed sound run
  obtain ⟨again, _⟩ := run.taken behind.suffix (readOpenTag_length_le bracket tokens)
  have ends := readOpenTag_ends fixed sound run
  unfold readOpening at clean left ⊢
  simp only at clean left ⊢
  generalize readOpenTag bracket tokens = opening at *
  obtain ⟨⟨tag, terminator⟩, problems, rest⟩ := opening
  split
  next literal =>
    simp only [if_pos literal, hasErrors_append, Bool.or_eq_false_iff] at clean
    obtain ⟨stop, reads, exact⟩ := ends clean.1 ">" (by rw [literal.1]; rfl)
    rw [again.start_unique exact]
    exact readLiteral_isWhole reads exact
  next other =>
    simp only [if_neg other] at clean left
    intro mark member
    obtain ⟨end_, reads, exact⟩ := ends clean mark member
    rw [left.start_unique exact]
    exact reads

theorem isLeaf_readComment (opening : Token) (tokens : List Token) :
    (readComment opening tokens).node.isLeaf := by
  unfold readComment
  simp only
  split <;> rfl

/-- **A piece without errors is whole.** -/
theorem readPiece_isWhole {first : Token} {stop : Nat}
    (run : Run tags source first.span.start (first :: tokens))
    (left : Run tags source stop (readPiece tags first tokens).rest)
    (clean : hasErrors (readPiece tags first tokens).problems = false) :
    (readPiece tags first tokens).node.IsWhole source ⟨start, stop⟩ := by
  obtain ⟨_, sound, tail⟩ := run.uncons
  unfold readPiece at clean left ⊢
  split at clean
  next kind =>
    simp only [kind] at left
    exact readOpening_isWhole (by rw [kind]; rfl) sound tail left clean
  next => trivial
  next => rfl
  next => exact isLeaf_readComment first tokens
  next => rfl

/-- A piece that is whole if it has no errors. -/
def Piece.IsWhole (source : String) (piece : Piece) : Prop :=
  hasErrors piece.problems = false → piece.form.IsWhole source piece.span

/-- **The pieces of a source are whole unless they have errors.** -/
theorem pieces_isWhole (run : Run tags source start tokens) :
    ∀ piece ∈ pieces tags tokens, piece.IsWhole source := by
  induction tokens using pieces.induct tags generalizing start with
  | case1 =>
    rw [pieces]
    exact fun _ member => by cases member
  | case2 first rest reading =>
    rename_i ih
    rw [pieces]
    obtain ⟨rfl, sound, tail⟩ := run.uncons
    obtain ⟨stop, left, fits⟩ := readPiece_stands run
    obtain ⟨again, _⟩ := tail.taken left.suffix (readPiece_length_le tags first rest)
    rw [← stopOf_cons first.span.stop] at again
    refine List.forall_mem_cons.mpr ⟨fun clean => ?_, ih left⟩
    exact readPiece_isWhole run again clean

end Pieces

variable {source : String} {start stop : Nat}

/-! ### Rows without gaps -/

/-- Ranges stand one directly behind the other from an offset to another one. -/
def Contiguous : Nat → List Span → Nat → Prop
  | start, [], stop => start = stop
  | start, span :: rest, stop => span.start = start ∧ Contiguous span.stop rest stop

theorem contiguous_append {first second : List Span} :
    Contiguous start (first ++ second) stop ↔
      ∃ middle, Contiguous start first middle ∧ Contiguous middle second stop := by
  induction first generalizing start with
  | nil => exact ⟨fun row => ⟨start, rfl, row⟩, fun ⟨_, same, row⟩ => by cases same; exact row⟩
  | cons span rest ih =>
    constructor
    · rintro ⟨place, row⟩
      obtain ⟨middle, left, right⟩ := ih.mp row
      exact ⟨middle, ⟨place, left⟩, right⟩
    · rintro ⟨middle, ⟨place, left⟩, right⟩
      exact ⟨place, ih.mpr ⟨middle, left, right⟩⟩

/-- The ranges of some contents. -/
def contentSpans (contents : List Content) : List Span := contents.map Content.span

/-! ### Elements -/

/-- There is no gap in an element. If it closes itself, the rest behind its open tag is the bracket.
Otherwise it ends with its close tag, and what it contains stands without a gap between the bracket
of its open tag and its close tag. -/
def Element.IsWhole (source : String) (element : Element) : Prop :=
  element.span.start = element.opening.span.start ∧
    match element.body with
    | .selfClosing =>
      element.closing = none ∧
        (⟨element.opening.span.stop, element.span.stop⟩ : Span).Reads source "/>"
    | body =>
      ∃ tag, element.closing = some tag ∧ element.span.stop = tag.span.stop ∧
        (⟨element.opening.span.stop, element.opening.span.stop + 1⟩ : Span).Reads source ">" ∧
        Contiguous (element.opening.span.stop + 1) ((Node.bodyNodes body).map Node.span)
          tag.span.start

/-- There is no gap in any element below a node. -/
def Node.IsWhole (source : String) (top : Node) : Prop :=
  ∀ element, top.Below (.element element) → element.IsWhole source

theorem Node.IsWhole.intro {top : Node}
    (here : ∀ element, top = .element element → element.IsWhole source)
    (inside : ∀ child ∈ top.children, child.IsWhole source) : top.IsWhole source := by
  intro element below
  rcases Relation.ReflTransGen.cases_head below with same | ⟨child, member, later⟩
  · exact here element same
  · exact inside child member element later

theorem Node.IsWhole.child {top child : Node} (whole : top.IsWhole source)
    (member : child ∈ top.children) : child.IsWhole source :=
  fun element below => whole element (.head member below)

/-- A node that is neither a document nor an element. -/
def Node.isPart : Node → Bool
  | root _ => false
  | element _ => false
  | _ => true

theorem Node.isPart_child {node child : Node} (part : node.isPart)
    (member : child ∈ node.children) : child.isPart := by
  cases node with
  | root | element => cases part
  | openTag node =>
    obtain ⟨item, _, rfl⟩ := List.mem_map.mp member
    rfl
  | pair node =>
    obtain ⟨value, _, rfl⟩ := List.mem_map.mp member
    cases value <;> rfl
  | quotedTemplate node =>
    obtain ⟨item, _, rfl⟩ := List.mem_map.mp member
    cases item <;> rfl
  | closeTag | template | comment | pragma | text | quoted | forIterator => cases member

/-- There are no elements below tags, values and leaves. -/
theorem Node.IsWhole.part {top : Node} (part : top.isPart) : top.IsWhole source := by
  have last : ∀ node, top.Below node → node.isPart := by
    intro node below
    induction below with
    | refl => exact part
    | tail _ member ih => exact Node.isPart_child ih member
  exact fun element below => absurd (last _ below) Bool.false_ne_true

theorem Content.isWhole_leaf {content : Content} (leaf : content.isLeaf) :
    content.node.IsWhole source := by
  cases content with
  | element node => cases leaf
  | template | comment | pragma | text => exact .part rfl

/-- An element is whole with everything below it if the contents of its body are. -/
theorem Element.IsWhole.node {element : Element} (here : element.IsWhole source)
    (inside : ∀ child ∈ Node.bodyNodes element.body, child.IsWhole source) :
    (Node.element element).IsWhole source := by
  refine .intro (fun other same => ?_) fun child member => ?_
  · cases same
    exact here
  · simp only [Node.children, List.mem_cons, List.mem_append, List.mem_map] at member
    rcases member with (rfl | body) | ⟨tag, _, rfl⟩
    · exact .part rfl
    · exact inside child body
    · exact .part rfl

/-! ### Assemblies -/

/-- Contents, last one first, that stand one directly behind the other and have no gaps. -/
structure TightRow (source : String) (start : Nat) (contents : List Content) (stop : Nat) :
    Prop where
  contiguous : Contiguous start (contentSpans contents.reverse) stop
  whole : ∀ content ∈ contents, content.node.IsWhole source

theorem TightRow.nil : TightRow source start [] start := ⟨rfl, fun _ absurd => by cases absurd⟩

theorem TightRow.cons {content : Content} {contents : List Content}
    (row : TightRow source start contents content.span.start)
    (whole : content.node.IsWhole source) :
    TightRow source start (content :: contents) content.span.stop := by
  refine ⟨?_, List.forall_mem_cons.mpr ⟨whole, row.whole⟩⟩
  rw [contentSpans, List.reverse_cons, List.map_append]
  exact contiguous_append.mpr ⟨_, row.contiguous, rfl, rfl⟩

/-- The contents of an open element so far go on without a gap behind its open tag. -/
structure OpenElement.IsTight (source : String) (element : OpenElement) (position : Nat) :
    Prop where
  bracket : (⟨element.tag.span.stop, element.bodyStart⟩ : Span).Reads source ">"
  row : TightRow source element.bodyStart element.contents position

/-- The contents of the document and of the open elements, innermost first, have no gaps. What is
around an element goes up to its open tag. -/
def OpenTight (source : String) (contents : List Content) : List OpenElement → Nat → Prop
  | [], position => TightRow source 0 contents position
  | innermost :: outer, position =>
    innermost.IsTight source position ∧ OpenTight source contents outer innermost.tag.span.start

/-- The contents of an assembly have no gaps up to an offset. -/
def Assembly.IsTight (source : String) (assembly : Assembly) (position : Nat) : Prop :=
  OpenTight source assembly.contents assembly.opened position

section Assembling

variable {assembly : Assembly}

theorem Assembly.IsTight.add {content : Content} (tight : assembly.IsTight source start)
    (place : content.span = ⟨start, stop⟩) (whole : content.node.IsWhole source) :
    (assembly.add content).IsTight source stop := by
  obtain ⟨opened, contents⟩ := assembly
  have first : start = content.span.start := by rw [place]
  have last : stop = content.span.stop := by rw [place]
  subst first last
  cases opened with
  | nil => exact TightRow.cons tight whole
  | cons innermost outer =>
    obtain ⟨⟨bracket, row⟩, around⟩ := tight
    exact ⟨⟨bracket, row.cons whole⟩, around⟩

/-- **An element that is closed where its contents end is whole.** -/
theorem OpenElement.IsTight.finish {element : OpenElement} {tag : CloseTag}
    (tight : element.IsTight source tag.span.start)
    (order : element.tag.span.stop ≤ tag.span.stop) :
    (Node.element (element.finish (some tag))).IsWhole source ∧
      (element.finish (some tag)).span = ⟨element.tag.span.start, tag.span.stop⟩ := by
  have size : element.bodyStart = element.tag.span.stop + 1 := tight.bracket.stop_eq
  have last : max tag.span.stop element.tag.span.stop = tag.span.stop := Nat.max_eq_left order
  refine ⟨Element.IsWhole.node ⟨rfl, tag, rfl, last, ?_, ?_⟩ ?_, ?_⟩
  · have bracket := tight.bracket
    rw [size] at bracket
    exact bracket
  · have row := tight.row.contiguous
    rw [size] at row
    show Contiguous _ ((element.contents.reverse.map Content.node).map Node.span) _
    rw [List.map_map]
    have same : Node.span ∘ Content.node = Content.span := funext span_contentNode
    rwa [same]
  · intro child member
    obtain ⟨content, inside, rfl⟩ := List.mem_map.mp member
    exact tight.row.whole content (List.mem_reverse.mp inside)
  · exact congrArg (Span.mk _) last

/-- **What one piece without errors preserves.** -/
theorem Assembly.IsTight.step {piece : Piece} (tight : assembly.IsTight source piece.span.start)
    (fits : assembly.Fits source piece.span.start) (placed : piece.IsPlaced source)
    (whole : piece.IsWhole source) (clean : hasErrors (assembly.step piece).2 = false) :
    (assembly.step piece).1.IsTight source piece.span.stop := by
  obtain ⟨form, problems, text, span⟩ := piece
  obtain ⟨reads, inside⟩ := placed
  unfold Assembly.step at clean ⊢
  simp only [Piece.IsWhole] at tight fits reads inside whole clean ⊢
  cases form with
  | leaf content =>
    obtain ⟨_, place⟩ := inside
    exact tight.add (by rw [← span_contentNode, place]) (Content.isWhole_leaf (whole clean))
  | literal tag body closing =>
    obtain ⟨place, last, _⟩ := inside
    simp only [hasErrors_append, Bool.or_eq_false_iff] at clean
    cases closing with
    | none => exact absurd clean.2 (by simp [Problem.severity])
    | some close =>
      obtain ⟨bracket, gap⟩ := whole clean.1
      have size : body.span.start = tag.span.stop + 1 := bracket.stop_eq
      refine tight.add (by simp only [Content.span, place, last]) (Element.IsWhole.node ?_ ?_)
      · exact ⟨rfl, close, rfl, rfl, size ▸ bracket, size, gap close rfl⟩
      · exact List.forall_mem_singleton.mpr (.part rfl)
  | opening tag terminator =>
    obtain ⟨_, place, _⟩ := inside
    cases terminator with
    | selfClose =>
      refine tight.add (by simp only [Content.span, place]) (Element.IsWhole.node ?_ ?_)
      · exact ⟨rfl, rfl, whole clean "/>" rfl⟩
      · exact fun _ absurd => by cases absurd
    | missing => simp [Problem.severity] at clean
    | close =>
      refine ⟨⟨whole clean ">" rfl, .nil⟩, ?_⟩
      show OpenTight source assembly.contents assembly.opened tag.span.start
      rw [place]
      exact tight
  | closing tag =>
    obtain ⟨tagPlaced, rfl⟩ := inside
    obtain ⟨opened, contents⟩ := assembly
    cases opened with
    | nil => simp [Problem.severity] at clean
    | cons innermost outer =>
      simp only at clean ⊢
      split
      next same =>
        obtain ⟨inner, around⟩ := tight
        have order : innermost.tag.span.stop ≤ tag.span.stop := calc
          _ ≤ _ := fits.1.behind
          _ ≤ _ := fits.1.row.start_le_stop
          _ ≤ _ := tagPlaced.fits.ordered
        obtain ⟨element, spot⟩ := inner.finish order
        have outside : Assembly.IsTight source ⟨outer, contents⟩ innermost.tag.span.start := around
        exact outside.add spot element
      next other => simp [other, Problem.severity] at clean

/-- **The contents that pieces without errors make up have no gaps** up to the end of the source. -/
theorem assemble_contiguous {all : List Piece} (tight : assembly.IsTight source start)
    (fits : assembly.Fits source start) (run : PieceRun source start all)
    (whole : ∀ piece ∈ all, piece.IsWhole source)
    (clean : hasErrors (assemble assembly all).2 = false) :
    Contiguous 0 (contentSpans (assemble assembly all).1) source.utf8ByteSize ∧
      ∀ content ∈ (assemble assembly all).1, content.node.IsWhole source := by
  -- The induction is on the pieces that are left; the offset is where the first of them stands.
  induction assembly, all using assemble.induct generalizing start with
  | case1 assembly =>
    obtain rfl : start = source.utf8ByteSize := run
    obtain ⟨opened, contents⟩ := assembly
    rw [assemble] at clean ⊢
    cases opened with
    | nil =>
      have row : TightRow source 0 contents source.utf8ByteSize := tight
      exact ⟨row.contiguous, fun content member => row.whole content (List.mem_reverse.mp member)⟩
    | cons innermost outer => simp [finishAll, Problem.severity] at clean
  | case2 assembly piece rest deep skipped span =>
    rw [assemble, if_pos deep] at clean
    simp [Problem.severity] at clean
  | case3 assembly piece rest shallow next found same =>
    rename_i ih
    obtain ⟨rfl, placed, later⟩ := run
    obtain ⟨here, others⟩ := List.forall_mem_cons.mp whole
    rw [assemble, if_neg shallow, same] at clean ⊢
    simp only [hasErrors_append, Bool.or_eq_false_iff] at clean
    have stepped := tight.step fits placed here (by rw [same]; exact clean.1)
    have stands := fits.step placed
    rw [same] at stepped stands
    exact ih stepped stands later others clean.2

end Assembling

/-! ### The source of a tree -/

/-- What a source reads at a range. -/
def slice (source : String) (span : Span) : String :=
  String.Pos.Raw.extract source ⟨span.start⟩ ⟨span.stop⟩

mutual

/-- The source of some content: that of its tags, brackets and leaves one behind the other. -/
def contentSource (source : String) : Content → String
  | .element ⟨opening, body, closing, _⟩ =>
    slice source opening.span ++ bodySource source body
      ++ closing.elim "" fun tag => slice source tag.span
  | .template node => slice source node.span
  | .comment node => slice source node.span
  | .pragma node => slice source node.span
  | .text node => slice source node.span

/-- The source of a body with the bracket in front of it. -/
def bodySource (source : String) : Body → String
  | .selfClosing => "/>"
  | .literal text => ">" ++ slice source text.span
  | .children contents => ">" ++ contentsSource source contents

/-- The source of some contents. -/
def contentsSource (source : String) : List Content → String
  | [] => ""
  | content :: rest => contentSource source content ++ contentsSource source rest

end

/-- A source reads its slice at the range of a placed node. -/
theorem Node.IsPlaced.slice {node : Node} (placed : node.IsPlaced source) :
    (⟨node.span.start, node.span.stop⟩ : Span).Reads source (Markup.slice source node.span) :=
  .of_isValid placed.fits.start_isValid placed.fits.stop_isValid placed.fits.ordered

/-- The source of an element with a close tag is that of its tags and of what stands between
them. -/
theorem reads_element {opening : OpenTag} {tag : CloseTag} {between : String}
    (first : (Node.openTag opening).IsPlaced source) (last : (Node.closeTag tag).IsPlaced source)
    (middle : (⟨opening.span.stop, tag.span.start⟩ : Span).Reads source between) :
    (⟨opening.span.start, tag.span.stop⟩ : Span).Reads source
      (slice source opening.span ++ between ++ slice source tag.span) := by
  have front : (⟨opening.span.start, tag.span.start⟩ : Span).Reads source
      (slice source opening.span ++ between) := first.slice.append middle
  exact front.append last.slice

mutual

/-- **The source of some content without gaps is what the source reads at its range.** -/
theorem contentSource_reads (content : Content) (placed : content.node.IsPlaced source)
    (whole : content.node.IsWhole source) :
    content.span.Reads source (contentSource source content) := by
  match content with
  | .template _ | .comment _ | .pragma _ | .text _ => exact placed.slice
  | .element ⟨opening, body, closing, span⟩ =>
    obtain ⟨start, parts⟩ := whole _ .refl
    have first : (Node.openTag opening).IsPlaced source := placed.child List.mem_cons_self
    have inside : ∀ child ∈ Node.bodyNodes body,
        child.IsPlaced source ∧ child.IsWhole source := fun child member =>
      have below := List.mem_cons_of_mem _ (List.mem_append_left _ member)
      ⟨placed.child below, whole.child below⟩
    have close : ∀ tag, closing = some tag → (Node.closeTag tag).IsPlaced source := by
      rintro tag rfl
      exact placed.child (List.mem_cons_of_mem _ (List.mem_append_right _ List.mem_cons_self))
    have range : span = ⟨opening.span.start, span.stop⟩ := by rw [← start]
    simp only at parts
    rw [contentSource]
    show span.Reads source _
    match body with
    | .selfClosing =>
      obtain ⟨rfl, mark⟩ := parts
      rw [range, bodySource, Option.elim_none, String.append_empty]
      exact first.slice.append mark
    | .literal text =>
      obtain ⟨tag, rfl, last, bracket, place, ending⟩ := parts
      have middle := (inside _ List.mem_cons_self).1.slice
      rw [place, ending] at middle
      rw [range, bodySource, last, Option.elim_some]
      exact reads_element first (close tag rfl) (bracket.append middle)
    | .children contents =>
      obtain ⟨tag, rfl, last, bracket, row⟩ := parts
      rw [Node.bodyNodes, List.map_map, show Node.span ∘ Content.node = Content.span from
        funext span_contentNode] at row
      have middle := contentsSource_reads contents
        (fun content member => inside content.node (List.mem_map_of_mem member))
        bracket.stop_isValid row
      rw [range, bodySource, last, Option.elim_some]
      exact reads_element first (close tag rfl) (bracket.append middle)

/-- Contents without gaps that stand one directly behind the other. -/
theorem contentsSource_reads {start stop : Nat} (contents : List Content)
    (inside : ∀ content ∈ contents, content.node.IsPlaced source ∧ content.node.IsWhole source)
    (valid : (⟨start⟩ : String.Pos.Raw).IsValid source)
    (row : Contiguous start (contentSpans contents) stop) :
    (⟨start, stop⟩ : Span).Reads source (contentsSource source contents) := by
  match contents with
  | [] =>
    obtain rfl : start = stop := row
    exact .empty valid
  | content :: rest =>
    obtain ⟨⟨placed, whole⟩, later⟩ := List.forall_mem_cons.mp inside
    obtain ⟨rfl, behind⟩ := row
    have first := contentSource_reads content placed whole
    exact first.append (contentsSource_reads rest later first.stop_isValid behind)

end

/-! ### Documents -/

/-- **Nothing of a source without errors is lost in its tree.** The contents of the document stand
one directly behind the other from its first byte to its last. There is no gap in any element: one
that closes itself has only its bracket behind its open tag, any other one has a close tag, at which
it ends, and its contents fill the range from behind the bracket of its open tag to that close tag.
Tags, brackets and leaves one behind the other are the source. -/
theorem parse_isWhole (tags : LiteralTags) (source : String)
    (clean : hasErrors (parse tags source).diagnostics = false) :
    Contiguous 0 (contentSpans (parse tags source).root.children) source.utf8ByteSize ∧
      (∀ element, (Node.root (parse tags source).root).Below (.element element) →
        element.IsWhole source) ∧
      contentsSource source (parse tags source).root.children = source := by
  have run := Run.tokenize tags source
  have fresh : Assembly.Fits source ⟨[], []⟩ 0 := Nat.le_refl 0
  have tight : Assembly.IsTight source ⟨[], []⟩ 0 := TightRow.nil
  obtain ⟨row, whole⟩ := assemble_contiguous tight fresh (pieces_run run) (pieces_isWhole run) clean
  have placed := (assemble_row fresh (pieces_run run)).isPlaced
  refine ⟨row, Node.IsWhole.intro (fun _ absurd => by cases absurd) fun child member => ?_, ?_⟩
  · obtain ⟨content, inside, rfl⟩ := List.mem_map.mp member
    exact whole content inside
  · have reads := contentsSource_reads (parse tags source).root.children (fun content member =>
      ⟨placed content.node (List.mem_map_of_mem member), whole content member⟩) run.isValid row
    rw [← reads.extract]
    exact String.extract_zero_rawEndPos source

/-- A document with every kind of content, attributes and a literal element. -/
def mixedSource : String :=
  "<p a=\"x\" b = c d='\x7b\x7bi\x7d\x7d'>t <br /><!-- n --><text >\x7b <b></text ></p >"
    ++ "\x7b\x7b v \x7d\x7d\n"

theorem parse_isWhole_mixed :
    hasErrors (parse .standard mixedSource).diagnostics = false ∧
      Contiguous 0 (contentSpans (parse .standard mixedSource).root.children)
        mixedSource.utf8ByteSize ∧
      contentsSource mixedSource (parse .standard mixedSource).root.children = mixedSource := by
  have clean : hasErrors (parse .standard mixedSource).diagnostics = false := by decide +kernel
  obtain ⟨row, _, same⟩ := parse_isWhole .standard mixedSource clean
  exact ⟨clean, row, same⟩

end PromptMarkup.Markup
