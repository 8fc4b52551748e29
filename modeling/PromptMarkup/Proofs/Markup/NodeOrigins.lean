/-
**Where the nodes of a tree come from.**

The parser makes templates of nothing but an opening mark and what the lexer puts behind it, whether
it reads them between tags, as the value of an attribute or inside a quoted value, and it makes
elements and their tags of nothing but brackets and what the lexer puts behind those.

* `Node.IsRead`: a template, an open tag or an element is what the tokens from some tokens on read
  as;
* `Node.Originates`: so is every node below a node;
* `readQuoted_originates`, `readAttribute_originates`, `readOpenTag_originates`: the parts of a tag;
* `readPiece_originates`, `pieces_originates`: pieces;
* `Assembly.Originates`, `Assembly.Originates.step`: the invariant of an assembly, and what one
  piece preserves;
* `parse_originates`: the tree of a source;
* `OpenTag.Opens.start_lt_stop`: an open tag has at least its bracket;
* `parse_isBraced`: the source has a template with its expression wherever a template stands below
  a node of a tree;
* `parse_isBroad`: templates and elements of a tree have ranges that are not empty.
-/

import PromptMarkup.Proofs.Markup.TemplatePlaces
import PromptMarkup.Proofs.Markup.TreePlaces

namespace PromptMarkup.Markup

variable {tags : LiteralTags} {source : String} {start : Nat} {tokens rest : List Token}

/-! ### Nodes -/

/-- A template is what is read behind an opening mark among the tokens of a source. -/
def Template.IsRead (tags : LiteralTags) (source : String) (template : Template) : Prop :=
  ∃ opening rest, opening :: rest <:+ tokenize tags source ∧ opening.kind = .templateOpen ∧
    template = (readTemplate opening rest).node

/-- A literal element is what is read behind an opening bracket among the tokens of a source. -/
def OpenTag.IsRead (tags : LiteralTags) (source : String) (tag : OpenTag) (body : TextNode)
    (closing : Option CloseTag) : Prop :=
  ∃ bracket rest, bracket :: rest <:+ tokenize tags source ∧ bracket.kind = .openBracket ∧
    (readOpening tags bracket rest).node = .literal tag body closing

/-- An open tag is what is read behind an opening bracket among the tokens of a source. -/
def OpenTag.Opens (tags : LiteralTags) (source : String) (tag : OpenTag) : Prop :=
  ∃ bracket rest, bracket :: rest <:+ tokenize tags source ∧ bracket.kind = .openBracket ∧
    tag = (readOpenTag bracket rest).node.1

/-- The open tag of an element that is no literal one is what is read behind an opening bracket among
the tokens of a source. -/
def OpenTag.Begins (tags : LiteralTags) (source : String) (tag : OpenTag)
    (terminator : Terminator) : Prop :=
  ∃ bracket rest, bracket :: rest <:+ tokenize tags source ∧ bracket.kind = .openBracket ∧
    (readOpening tags bracket rest).node = .opening tag terminator

/-- A close tag is what is read behind its bracket among the tokens of a source. -/
def CloseTag.IsRead (tags : LiteralTags) (source : String) (tag : CloseTag) : Prop :=
  ∃ bracket rest, bracket :: rest <:+ tokenize tags source ∧
    bracket.kind = .closingOpenBracket ∧ tag = (readCloseTag bracket rest).node

/-- An open tag has a close tag of its name, in letters of either case, among the tokens of a
source. -/
def OpenTag.IsClosedBy (tags : LiteralTags) (source : String) (tag : OpenTag) (close : CloseTag) :
    Prop :=
  close.IsRead tags source ∧ Text.equalIgnoringCase tag.name close.name = true

/-- A template, an open tag or an element is read from the tokens of a source. -/
def Node.IsRead (tags : LiteralTags) (source : String) : Node → Prop
  | template node => node.IsRead tags source
  | openTag tag => tag.Opens tags source
  | element ⟨tag, .literal body, closing, _⟩ => tag.IsRead tags source body closing
  | element ⟨tag, _, closing, _⟩ =>
    ∃ terminator, tag.Begins tags source terminator ∧
      ∀ close ∈ closing, terminator = .close ∧ tag.IsClosedBy tags source close
  | _ => True

/-- Every template, open tag and element below a node is read from the tokens of a source. -/
def Node.Originates (tags : LiteralTags) (source : String) (top : Node) : Prop :=
  ∀ node, top.Below node → node.IsRead tags source

namespace Node.Originates

theorem intro {top : Node} (here : top.IsRead tags source)
    (inside : ∀ child ∈ top.children, child.Originates tags source) :
    top.Originates tags source := by
  intro node below
  rcases Relation.ReflTransGen.cases_head below with rfl | ⟨child, member, later⟩
  · exact here
  · exact inside child member node later

/-- A node with nothing below it that is read from no tokens in particular. -/
theorem leaf {top : Node} (here : top.IsRead tags source) (none : top.children = []) :
    top.Originates tags source := by
  refine .intro here ?_
  rw [none]
  exact List.forall_mem_nil _

theorem text (node : TextNode) : (Node.text node).Originates tags source := .leaf trivial rfl

theorem closeTag (tag : CloseTag) : (Node.closeTag tag).Originates tags source :=
  .leaf trivial rfl

theorem quoted (value : Quoted) : (Node.quoted value).Originates tags source :=
  .leaf trivial rfl

/-- An element is what it says if its open tag and its body are. -/
theorem element {tag : OpenTag} {body : Body} {closing : Option CloseTag} {span : Span}
    (here : (Node.element ⟨tag, body, closing, span⟩).IsRead tags source)
    (opening : (Node.openTag tag).Originates tags source)
    (inside : ∀ node ∈ Node.bodyNodes body, node.Originates tags source) :
    (Node.element ⟨tag, body, closing, span⟩).Originates tags source := by
  refine .intro here fun child member => ?_
  rcases List.mem_cons.mp member with rfl | member
  · exact opening
  · rcases List.mem_append.mp member with member | member
    · exact inside child member
    · obtain ⟨tag, _, rfl⟩ := List.mem_map.mp member
      exact .closeTag tag

end Node.Originates

/-! ### Attributes -/

theorem readTemplate_originates {opening : Token} (run : Run tags source start (opening :: tokens))
    (kind : opening.kind = .templateOpen) :
    (Node.template (readTemplate opening tokens).node).Originates tags source :=
  .leaf ⟨opening, tokens, run.suffix, kind, rfl⟩ rfl

theorem readParts_originates (quote : TokenKind) (run : Run tags source start tokens) :
    ∀ part ∈ (readParts quote start tokens).node.parts, part.node.Originates tags source := by
  fun_induction readParts quote start tokens with
  | case1 => exact List.forall_mem_nil _
  | case2 => exact List.forall_mem_nil _
  | case3 stop token rest other opens template others ih =>
    have here := readTemplate_originates run opens
    obtain ⟨rfl, sound, inner⟩ := run.uncons
    exact List.forall_mem_cons.mpr ⟨here, ih (readTemplate_stands sound inner).run⟩
  | case4 stop token rest other opens text others ih =>
    obtain ⟨rfl, sound, behind⟩ := run.uncons
    exact List.forall_mem_cons.mpr ⟨.text _, ih behind⟩
  | case5 => exact List.forall_mem_nil _

theorem readQuoted_originates (key : String) {opening : Token}
    (run : Run tags source opening.span.stop tokens) :
    (readQuoted key opening tokens).node.node.Originates tags source := by
  have parts := readParts_originates opening.kind run
  unfold readQuoted
  simp only
  split
  · refine .intro trivial fun child member => ?_
    obtain ⟨part, inside, rfl⟩ := List.mem_map.mp member
    exact parts part inside
  · split
    · split
      · exact .leaf trivial rfl
      · exact .quoted _
    · exact .quoted _

theorem readValue_originates (key : String) (named : Span) (run : Run tags source start tokens) :
    ∀ value ∈ (readValue key named tokens).node, value.node.Originates tags source := by
  have just : ∀ value : AttributeValue, value.node.Originates tags source →
      ∀ other ∈ some value, other.node.Originates tags source := by
    intro value origin other member
    rwa [← Option.mem_some.mp member]
  have nothing : ∀ value ∈ (none : Option AttributeValue), value.node.Originates tags source := by
    intro value absurd
    cases absurd
  unfold readValue
  split
  · exact nothing
  next token rest =>
    obtain ⟨rfl, sound, behind⟩ := run.uncons
    split
    · exact just _ (readQuoted_originates key behind)
    · exact just _ (readQuoted_originates key behind)
    next kind => exact just (.template _) (readTemplate_originates run kind)
    · exact just (.quoted _) (.quoted _)
    · exact just (.quoted _) (.quoted _)
    · exact nothing

theorem readAttribute_originates {key : Token} (run : Run tags source key.span.stop tokens) :
    (Node.pair (readAttribute key tokens).node).Originates tags source := by
  obtain ⟨blank, le, inner⟩ := run.skipKind_beyond .whitespace 0
  unfold readAttribute
  rcases inner.takeKind .equals with same | ⟨equals, after, same, _, place, mark, behind⟩
  · rw [same]
    exact .leaf trivial rfl
  · rw [same]
    obtain ⟨next, ge, left⟩ := behind.skipKind_beyond .whitespace 0
    refine .intro trivial fun child member => ?_
    obtain ⟨value, written, rfl⟩ := List.mem_map.mp member
    exact readValue_originates key.text _ left value (Option.mem_toList.mp written)

/-! ### Tags -/

/-- **The attributes of a tag keep their origins**, whatever else stands in the tag. -/
theorem readInside_originates (name : String) (stop : Nat)
    (run : RunBeyond tags source start tokens) :
    ∀ pair ∈ (readInside name stop tokens).node.attributes,
      (Node.pair pair).Originates tags source := by
  fun_induction readInside name stop tokens generalizing start with
  | case1 => exact List.forall_mem_nil _
  | case2 stop token rest kind ih =>
    obtain ⟨_, le, left⟩ := run
    obtain ⟨rfl, sound, behind⟩ := left.uncons
    exact ih behind.beyond
  | case3 stop token rest kind first others =>
    rename_i ih
    obtain ⟨_, le, left⟩ := run
    obtain ⟨rfl, sound, behind⟩ := left.uncons
    obtain ⟨_, _, beyond⟩ := readAttribute_placed sound behind
    exact List.forall_mem_cons.mpr ⟨readAttribute_originates behind, ih beyond⟩
  | case4 => exact List.forall_mem_nil _
  | case5 => exact List.forall_mem_nil _
  | case6 stop token rest kind template others =>
    rename_i ih
    obtain ⟨_, le, left⟩ := run
    obtain ⟨rfl, sound, behind⟩ := left.uncons
    exact ih (readTemplate_stands sound behind).run.beyond
  | case7 stop token rest kind | case8 stop token rest kind
  | case9 stop token rest kind | case10 stop token rest kind =>
    rename_i ih
    obtain ⟨_, le, left⟩ := run
    obtain ⟨rfl, sound, behind⟩ := left.uncons
    exact ih (skipStray_beyond token.kind behind.beyond)
  | case11 => exact List.forall_mem_nil _

theorem readOpenTag_originates {bracket : Token} (kind : bracket.kind = .openBracket)
    (run : Run tags source bracket.span.start (bracket :: tokens)) :
    (Node.openTag (readOpenTag bracket tokens).node.1).Originates tags source := by
  obtain ⟨_, _, behind⟩ := run.uncons.2.2.optional .identifier
  refine .intro ⟨bracket, tokens, run.suffix, kind, rfl⟩ fun child member => ?_
  obtain ⟨pair, inside, rfl⟩ := List.mem_map.mp member
  exact readInside_originates _ _ behind.beyond pair inside

/-! ### Pieces -/

/-- What a piece is made of is read from the tokens of a source. -/
def PieceForm.Originates (tags : LiteralTags) (source : String) : PieceForm → Prop
  | opening tag terminator =>
    (Node.openTag tag).Originates tags source ∧ tag.Begins tags source terminator
  | closing tag => tag.IsRead tags source
  | literal tag body close =>
    (Node.openTag tag).Originates tags source ∧ tag.IsRead tags source body close
  | leaf content => content.node.Originates tags source

/-- **A literal element is read behind its bracket.** -/
theorem readOpening_originates {bracket : Token} (kind : bracket.kind = .openBracket)
    (run : Run tags source bracket.span.start (bracket :: tokens)) :
    (readOpening tags bracket tokens).node.Originates tags source := by
  have opening := readOpenTag_originates kind run
  have read : ∀ tag body closing, (readOpening tags bracket tokens).node =
      .literal tag body closing → tag.IsRead tags source body closing :=
    fun tag body closing same => ⟨bracket, tokens, run.suffix, kind, same⟩
  have begins : ∀ tag terminator, (readOpening tags bracket tokens).node =
      .opening tag terminator → tag.Begins tags source terminator :=
    fun tag terminator same => ⟨bracket, tokens, run.suffix, kind, same⟩
  unfold readOpening at read begins ⊢
  simp only at read begins ⊢
  generalize readOpenTag bracket tokens = reading at opening read begins ⊢
  obtain ⟨⟨tag, terminator⟩, problems, rest⟩ := reading
  split
  next literal =>
    rw [if_pos literal] at read
    unfold readLiteral at read ⊢
    simp only at read ⊢
    split
    next sign after found =>
      rw [found] at read
      exact ⟨opening, read _ _ _ rfl⟩
    next after found =>
      rw [found] at read
      exact ⟨opening, read _ _ _ rfl⟩
  next plain =>
    rw [if_neg plain] at begins
    exact ⟨opening, begins _ _ rfl⟩

theorem readComment_originates (opening : Token) :
    (readComment opening tokens).node.node.Originates tags source := by
  unfold readComment
  simp only
  split
  · exact .leaf trivial rfl
  · exact .leaf trivial rfl

/-- **What a piece is made of is read from the tokens** that the piece begins with. -/
theorem readPiece_originates {first : Token}
    (run : Run tags source first.span.start (first :: tokens)) :
    (readPiece tags first tokens).node.Originates tags source := by
  unfold readPiece
  split
  next kind => exact readOpening_originates kind run
  next kind => exact ⟨first, tokens, run.suffix, kind, rfl⟩
  next kind => exact readTemplate_originates run kind
  · exact readComment_originates first
  · exact .text _

theorem pieces_originates (run : Run tags source start tokens) :
    ∀ piece ∈ pieces tags tokens, piece.form.Originates tags source := by
  induction tokens using pieces.induct tags generalizing start with
  | case1 =>
    rw [pieces]
    exact List.forall_mem_nil _
  | case2 first rest reading =>
    rename_i ih
    rw [pieces]
    obtain ⟨rfl, sound, tail⟩ := run.uncons
    obtain ⟨stop, left, _⟩ := readPiece_stands run
    exact List.forall_mem_cons.mpr ⟨readPiece_originates run, ih left⟩

/-! ### Assemblies -/

/-- Everything in some contents is read from the tokens of a source. -/
def AreOriginal (tags : LiteralTags) (source : String) (contents : List Content) : Prop :=
  ∀ content ∈ contents, content.node.Originates tags source

/-- Everything in an open element is read from the tokens of a source. -/
structure OpenElement.Originates (tags : LiteralTags) (source : String) (element : OpenElement) :
    Prop where
  tag : (Node.openTag element.tag).Originates tags source
  begins : element.tag.Begins tags source .close
  contents : AreOriginal tags source element.contents

/-- Everything put together so far is read from the tokens of a source. -/
structure Assembly.Originates (tags : LiteralTags) (source : String) (assembly : Assembly) :
    Prop where
  opened : ∀ element ∈ assembly.opened, element.Originates tags source
  contents : AreOriginal tags source assembly.contents

/-- An element that is closed is none of those that are read at once. -/
theorem OpenElement.Originates.finish {element : OpenElement} {closing : Option CloseTag}
    (origin : element.Originates tags source)
    (closes : ∀ close ∈ closing, element.tag.IsClosedBy tags source close) :
    (Node.element (element.finish closing)).Originates tags source := by
  have read : (Node.element (element.finish closing)).IsRead tags source :=
    ⟨.close, origin.begins, fun close member => ⟨rfl, closes close member⟩⟩
  refine .element read origin.tag fun node member => ?_
  obtain ⟨content, inside, rfl⟩ := List.mem_map.mp member
  exact origin.contents content (List.mem_reverse.mp inside)

section Assembling

variable {assembly : Assembly}

theorem Assembly.Originates.add {content : Content} (origin : assembly.Originates tags source)
    (here : content.node.Originates tags source) :
    (assembly.add content).Originates tags source := by
  obtain ⟨opened, contents⟩ := assembly
  cases opened with
  | nil => exact ⟨origin.opened, List.forall_mem_cons.mpr ⟨here, origin.contents⟩⟩
  | cons innermost outer =>
    obtain ⟨inner, around⟩ := List.forall_mem_cons.mp origin.opened
    refine ⟨List.forall_mem_cons.mpr ⟨⟨inner.tag, inner.begins, ?_⟩, around⟩, origin.contents⟩
    exact List.forall_mem_cons.mpr ⟨here, inner.contents⟩

theorem Assembly.Originates.close {closing : Option CloseTag}
    (origin : assembly.Originates tags source)
    (closes : ∀ close ∈ closing, ∀ innermost ∈ assembly.opened.head?,
      innermost.tag.IsClosedBy tags source close) :
    (assembly.close closing).Originates tags source := by
  obtain ⟨opened, contents⟩ := assembly
  cases opened with
  | nil => exact origin
  | cons innermost outer =>
    obtain ⟨inner, around⟩ := List.forall_mem_cons.mp origin.opened
    have rest : Assembly.Originates tags source ⟨outer, contents⟩ := ⟨around, origin.contents⟩
    exact rest.add (inner.finish fun close member => closes close member innermost rfl)

/-- **What one piece preserves.** -/
theorem Assembly.Originates.step {piece : Piece} (origin : assembly.Originates tags source)
    (here : piece.form.Originates tags source) :
    (assembly.step piece).1.Originates tags source := by
  obtain ⟨form, problems, text, span⟩ := piece
  have nothing : ∀ node ∈ Node.bodyNodes (.children []), node.Originates tags source :=
    List.forall_mem_nil _
  have unclosed : ∀ (terminator : Terminator) (tag : OpenTag), ∀ close ∈ (none : Option CloseTag),
      terminator = .close ∧ tag.IsClosedBy tags source close :=
    fun _ _ close absurd => by cases absurd
  unfold Assembly.step
  cases form with
  | leaf content => exact origin.add here
  | literal tag body closing =>
    exact origin.add (.element here.2 here.1 (List.forall_mem_singleton.mpr (.text body)))
  | opening tag terminator =>
    cases terminator with
    | selfClose =>
      exact origin.add (.element ⟨_, here.2, unclosed _ _⟩ here.1 (List.forall_mem_nil _))
    | missing => exact origin.add (.element ⟨_, here.2, unclosed _ _⟩ here.1 nothing)
    | close =>
      exact ⟨List.forall_mem_cons.mpr ⟨⟨here.1, here.2, List.forall_mem_nil _⟩, origin.opened⟩,
        origin.contents⟩
  | closing tag =>
    simp only
    split
    · exact origin.add (.text _)
    next innermost outer opened =>
      split
      next same =>
        refine origin.close fun close member other first => ?_
        rw [opened] at first
        obtain rfl := Option.some.inj member
        obtain rfl := Option.some.inj first
        exact ⟨here, same⟩
      · exact origin.add (.text _)

/-- **Elements that are still open at the end keep their origins.** -/
theorem finishAll_originates {pending contents : List Content} {opened : List OpenElement}
    (first : AreOriginal tags source pending) (around : AreOriginal tags source contents)
    (inner : ∀ element ∈ opened, element.Originates tags source) :
    AreOriginal tags source (finishAll pending contents opened).1 := by
  induction opened generalizing pending with
  | nil =>
    intro content member
    rcases List.mem_append.mp (List.mem_reverse.mp member) with member | member
    · exact first content member
    · exact around content member
  | cons innermost outer ih =>
    obtain ⟨here, others⟩ := List.forall_mem_cons.mp inner
    have whole : OpenElement.Originates tags source
        { innermost with contents := pending ++ innermost.contents } :=
      ⟨here.tag, here.begins, List.forall_mem_append.mpr ⟨first, here.contents⟩⟩
    have unclosed : ∀ close ∈ (none : Option CloseTag),
        innermost.tag.IsClosedBy tags source close := fun close absurd => by cases absurd
    exact ih (List.forall_mem_singleton.mpr (whole.finish unclosed)) others

/-- **The contents that pieces make up keep their origins.** -/
theorem assemble_originates {all : List Piece} (origin : assembly.Originates tags source)
    (each : ∀ piece ∈ all, piece.form.Originates tags source) :
    AreOriginal tags source (assemble assembly all).1 := by
  -- The induction is on the pieces that are left.
  induction assembly, all using assemble.induct with
  | case1 assembly =>
    rw [assemble]
    exact finishAll_originates (List.forall_mem_nil _) origin.contents origin.opened
  | case2 assembly piece rest deep skipped span =>
    rename_i ih
    rw [assemble, if_pos deep]
    refine ih (origin.add (.text _)) fun other member => each other ?_
    exact (skipElement_suffix 0 piece.span.start (piece :: rest)).mem member
  | case3 assembly piece rest shallow next found same =>
    rename_i ih
    obtain ⟨here, later⟩ := List.forall_mem_cons.mp each
    have stepped := origin.step here
    rw [same] at stepped
    rw [assemble, if_neg shallow, same]
    exact ih stepped later

end Assembling

/-- **Every template, open tag and element of a tree is read from the tokens of the source.** -/
theorem parse_originates (tags : LiteralTags) (source : String) :
    (Node.root (parse tags source).root).Originates tags source := by
  have contents : AreOriginal tags source (parse tags source).root.children :=
    assemble_originates ⟨List.forall_mem_nil _, List.forall_mem_nil _⟩
      (pieces_originates (Run.tokenize tags source))
  refine .intro trivial fun child member => ?_
  obtain ⟨content, inside, rfl⟩ := List.mem_map.mp member
  exact contents content inside

/-- **An open tag has at least its bracket.** -/
theorem OpenTag.Opens.start_lt_stop {tag : OpenTag} (opens : tag.Opens tags source) :
    tag.span.start < tag.span.stop := by
  obtain ⟨bracket, rest, ⟨front, whole⟩, kind, rfl⟩ := opens
  have run := Run.tokenize tags source
  rw [← whole] at run
  obtain ⟨_, sound, behind⟩ := run.append.1.uncons
  obtain ⟨start, stop, _⟩ := readOpenTag_placed (by rw [kind]; rfl) sound behind
  rw [start]
  exact Nat.lt_of_lt_of_le sound.nonempty stop

/-! ### Templates between braces -/

/-- At the range of every template below a node, the source has a template with its expression. -/
def Node.IsBraced (source : String) (top : Node) : Prop :=
  ∀ template, top.Below (.template template) →
    template.span.ReadsTemplate source template.expression

namespace Node.IsBraced

/-- What keeps its templates keeps them in every part of it. -/
theorem below {top node : Node} (braced : top.IsBraced source) (below : top.Below node) :
    node.IsBraced source := fun template later => braced template (below.trans later)

theorem child {top child : Node} (braced : top.IsBraced source) (member : child ∈ top.children) :
    child.IsBraced source := braced.below (.single member)

end Node.IsBraced

/-- **Every template of a tree stands between braces**: at its range the source has a template with
its expression. -/
theorem parse_isBraced (tags : LiteralTags) (source : String) :
    (Node.root (parse tags source).root).IsBraced source := by
  intro template below
  obtain ⟨opening, rest, suffix, kind, rfl⟩ := parse_originates tags source _ below
  exact readTemplate_reads suffix kind

/-- Templates and elements have ranges that are not empty. -/
def Node.IsBroad : Node → Prop
  | template node => node.span.start < node.span.stop
  | element node => node.span.start < node.span.stop
  | _ => True

/-- **Templates and elements of a tree have ranges that are not empty**, as they have at least their
opening marks. -/
theorem parse_isBroad (tags : LiteralTags) (source : String) {node : Node}
    (below : (Node.root (parse tags source).root).Below node) : node.IsBroad := by
  cases node with
  | template node => exact (parse_isBraced tags source node below).start_lt_stop
  | element node =>
    have opens : node.opening.Opens tags source :=
      parse_originates tags source _ (below.tail List.mem_cons_self)
    obtain ⟨first, last⟩ := (placed_parse tags source _ below).contains _ List.mem_cons_self
    exact Nat.lt_of_le_of_lt first (Nat.lt_of_lt_of_le opens.start_lt_stop last)
  | _ => trivial

end PromptMarkup.Markup
