/-
**The tree of a source with an element under another name.**

While the pieces of a source are put together, everything that has been read is kept: it is found in
the tree in the end, in the document or in what the open element around it becomes. Elements are put
together in the same way under another name, unless a close tag of that name that stood in the
element as text closes it now.

* `Assembly.Adds`, `Assembly.Leads`: what is found in the tree of an assembly;
* `Assembly.Leads.of_add`, `Assembly.Leads.of_close`, `Assembly.Leads.of_step`: what is found behind
  a piece was found in front of it;
* `leads_finishAll`, `leads_assemble`: the end of a document, and all pieces;
* `Relabel.Separates`: no text between the tags of a tree holds a name that is renamed, and the
  close tag of an element is renamed with its open tag;
* `Assembly.Renames.step`, `assemble_renamed`: what one piece preserves, and all of them;
* `beginsClose`, `separates_relabel`: the text of a close tag, and when the tags of an element can
  be renamed;
* `parse_renamed`: the tree of the source.
-/

import PromptMarkup.Markup.Document
import PromptMarkup.Proofs.Markup.NamePlaces
import PromptMarkup.Proofs.Markup.NodePlaces
import PromptMarkup.Proofs.Markup.RenamedPieces

namespace PromptMarkup.Markup

section Leads

variable {top : Node}

/-- Some content is found where an assembly adds it: among the contents of the document, or in what
the innermost open element becomes. -/
inductive Assembly.Adds (top : Node) (content : Content) : List OpenElement → Prop
  | root : content.node ∈ top.children → Assembly.Adds top content []
  | inner {innermost : OpenElement} {outer : List OpenElement} {element : Element} :
      top.Below (.element element) → element.opening = innermost.tag →
      content ∈ element.children → Assembly.Adds top content (innermost :: outer)

/-- An open element becomes an element of the tree. -/
def OpenElement.Leads (top : Node) (inner : OpenElement) : Prop :=
  ∃ element, top.Below (.element element) ∧ element.opening = inner.tag ∧
    ∀ content ∈ inner.contents, content ∈ element.children

/-- Everything in an assembly is found in the tree in the end. -/
structure Assembly.Leads (top : Node) (assembly : Assembly) : Prop where
  contents : ∀ content ∈ assembly.contents, content.node ∈ top.children
  opened : ∀ inner ∈ assembly.opened, inner.Leads top

theorem Element.node_mem_of_children {element : Element} {content : Content}
    (member : content ∈ element.children) : content.node ∈ (Node.element element).children := by
  obtain ⟨tag, body, closing, span⟩ := element
  cases body with
  | selfClosing | literal => cases member
  | children contents =>
    exact List.mem_cons_of_mem _ (List.mem_append_left _ (List.mem_map_of_mem member))

theorem Assembly.Adds.below {content : Content} {opened : List OpenElement}
    (adds : Assembly.Adds top content opened) : top.Below content.node := by
  cases adds with
  | root member => exact .single member
  | inner below _ member => exact below.tail (Element.node_mem_of_children member)

section Leading

variable {assembly : Assembly}

theorem Assembly.Leads.of_add {content : Content} (leads : (assembly.add content).Leads top) :
    assembly.Leads top ∧ Assembly.Adds top content assembly.opened := by
  obtain ⟨opened, contents⟩ := assembly
  cases opened with
  | nil =>
    obtain ⟨here, others⟩ := List.forall_mem_cons.mp leads.contents
    exact ⟨⟨others, leads.opened⟩, .root here⟩
  | cons innermost outer =>
    obtain ⟨⟨element, below, tag, inside⟩, around⟩ := List.forall_mem_cons.mp leads.opened
    obtain ⟨here, others⟩ := List.forall_mem_cons.mp inside
    exact ⟨⟨leads.contents, List.forall_mem_cons.mpr ⟨⟨element, below, tag, others⟩, around⟩⟩,
      .inner below tag here⟩

theorem Assembly.Leads.of_close {innermost : OpenElement} {outer : List OpenElement}
    {contents : List Content} {closing : Option CloseTag}
    (leads : (Assembly.close ⟨innermost :: outer, contents⟩ closing).Leads top) :
    Assembly.Leads top ⟨innermost :: outer, contents⟩ ∧
      top.Below (.element (innermost.finish closing)) := by
  obtain ⟨around, adds⟩ := Assembly.Leads.of_add leads
  refine ⟨⟨around.contents, List.forall_mem_cons.mpr ⟨?_, around.opened⟩⟩, adds.below⟩
  refine ⟨innermost.finish closing, adds.below, rfl, fun content member => ?_⟩
  exact List.mem_reverse.mpr member

theorem Assembly.Leads.of_step {piece : Piece} (leads : (assembly.step piece).1.Leads top) :
    assembly.Leads top := by
  obtain ⟨form, problems, text, span⟩ := piece
  unfold Assembly.step at leads
  cases form with
  | leaf content => exact leads.of_add.1
  | literal tag body closing => exact leads.of_add.1
  | opening tag terminator =>
    cases terminator with
    | selfClose => exact leads.of_add.1
    | missing => exact leads.of_add.1
    | close => exact ⟨leads.contents, (List.forall_mem_cons.mp leads.opened).2⟩
  | closing tag =>
    simp only at leads
    split at leads
    · exact leads.of_add.1
    next innermost outer opened =>
      split at leads
      · obtain ⟨_, contents⟩ := assembly
        obtain rfl : _ = innermost :: outer := opened
        exact leads.of_close.1
      · exact leads.of_add.1

/-- **What is open at the end** is found in the tree, too. -/
theorem leads_finishAll {pending contents : List Content} {opened : List OpenElement}
    (whole : ∀ content ∈ (finishAll pending contents opened).1, content.node ∈ top.children) :
    Assembly.Leads top ⟨opened, contents⟩ ∧
      ∀ content ∈ pending, Assembly.Adds top content opened := by
  induction opened generalizing pending with
  | nil =>
    simp only [finishAll, List.mem_reverse] at whole
    obtain ⟨first, second⟩ := List.forall_mem_append.mp whole
    exact ⟨⟨second, List.forall_mem_nil _⟩, fun content member => .root (first content member)⟩
  | cons innermost outer ih =>
    obtain ⟨around, adds⟩ := ih whole
    have below := (adds _ List.mem_cons_self).below
    have inside : ∀ content ∈ pending ++ innermost.contents, content ∈
        (OpenElement.finish { innermost with contents := pending ++ innermost.contents }
          none).children := fun content member => List.mem_reverse.mpr member
    obtain ⟨first, second⟩ := List.forall_mem_append.mp inside
    exact ⟨⟨around.contents, List.forall_mem_cons.mpr ⟨⟨_, below, rfl, second⟩, around.opened⟩⟩,
      fun content member => .inner below rfl (first content member)⟩

/-- **Everything in an assembly is found in the tree** that the pieces behind it lead to. -/
theorem leads_assemble {all : List Piece}
    (whole : ∀ content ∈ (assemble assembly all).1, content.node ∈ top.children) :
    assembly.Leads top := by
  induction assembly, all using assemble.induct with
  | case1 assembly =>
    rw [assemble] at whole
    exact (leads_finishAll whole).1
  | case2 assembly piece rest deep skipped span =>
    rename_i ih
    rw [assemble, if_pos deep] at whole
    exact (ih whole).of_add.1
  | case3 assembly piece rest shallow next found same =>
    rename_i ih
    rw [assemble, if_neg shallow, same] at whole
    have stepped := ih whole
    exact Assembly.Leads.of_step (show (assembly.step piece).1.Leads top by rwa [same])

end Leading

end Leads

open Text

variable {relabel : Relabel} {tags : LiteralTags} {source : String} {top : Node}

/-! ### Two assemblies -/

/-- Open elements with the same contents up to names. -/
structure OpenElement.Renames (relabel : Relabel) (one other : OpenElement) : Prop where
  tag : one.tag.Renames relabel other.tag
  contents : List.Forall₂ (Content.Renames relabel) one.contents other.contents

/-- Assemblies with the same contents up to names. -/
structure Assembly.Renames (relabel : Relabel) (one other : Assembly) : Prop where
  opened : List.Forall₂ (OpenElement.Renames relabel) one.opened other.opened
  contents : List.Forall₂ (Content.Renames relabel) one.contents other.contents

theorem OpenElement.Renames.finish {one other : OpenElement} (same : one.Renames relabel other)
    (closing again : Option CloseTag) :
    (Content.element (one.finish closing)).Renames relabel (.element (other.finish again)) :=
  .element same.tag (.children (List.rel_reverse same.contents))

section Assemblies

variable {one other : Assembly}

theorem Assembly.Renames.add {content again : Content} (same : one.Renames relabel other)
    (here : content.Renames relabel again) :
    (one.add content).Renames relabel (other.add again) := by
  obtain ⟨opened, contents⟩ := one
  obtain ⟨others, more⟩ := other
  obtain ⟨inner, outer⟩ := same
  cases inner with
  | nil => exact ⟨.nil, .cons here outer⟩
  | cons first rest => exact ⟨.cons ⟨first.tag, .cons here first.contents⟩ rest, outer⟩

theorem Assembly.Renames.close (same : one.Renames relabel other)
    (closing again : Option CloseTag) :
    (one.close closing).Renames relabel (other.close again) := by
  obtain ⟨opened, contents⟩ := one
  obtain ⟨others, more⟩ := other
  obtain ⟨inner, outer⟩ := same
  cases inner with
  | nil => exact ⟨.nil, outer⟩
  | cons first rest =>
    have around : Assembly.Renames relabel ⟨_, contents⟩ ⟨_, more⟩ := ⟨rest, outer⟩
    exact around.add (first.finish closing again)

theorem finishAll_renamed {pending again contents more : List Content}
    {opened others : List OpenElement}
    (first : List.Forall₂ (Content.Renames relabel) pending again)
    (around : List.Forall₂ (Content.Renames relabel) contents more)
    (inner : List.Forall₂ (OpenElement.Renames relabel) opened others) :
    List.Forall₂ (Content.Renames relabel) (finishAll pending contents opened).1
      (finishAll again more others).1 := by
  induction inner generalizing pending again with
  | nil => exact List.rel_reverse (List.rel_append first around)
  | @cons one other _ _ here _ ih =>
    have whole : OpenElement.Renames relabel { one with contents := pending ++ one.contents }
        { other with contents := again ++ other.contents } :=
      ⟨here.tag, List.rel_append first here.contents⟩
    exact ih (.cons (whole.finish none none) .nil)

/-! ### Pieces passed over -/

theorem PieceForm.Renames.openBehind {form again : PieceForm} (same : form.Renames relabel again)
    (count : Nat) : openBehind count again = openBehind count form := by
  cases same with
  | opening terminator => cases terminator <;> rfl
  | closing => rfl
  | @literal _ _ _ _ close last _ _ closed =>
    cases close <;> cases last <;> first | rfl | cases closed
  | leaf => rfl

theorem Piece.Renames.opensElement {piece again : Piece} (same : piece.Renames relabel again) :
    again.opensElement = piece.opensElement := by
  obtain ⟨form, _, _, _⟩ := piece
  obtain ⟨other, _, _, _⟩ := again
  obtain ⟨same, _⟩ := same
  cases same <;> rfl

theorem skipElement_renamed {all again : List Piece} (count start stop : Nat)
    (same : List.Forall₂ (Piece.Renames relabel) all again) :
    List.Forall₂ (Piece.Renames relabel) (skipElement count start all).rest
      (skipElement count stop again).rest := by
  induction same generalizing count start stop with
  | nil => exact .nil
  | cons here later ih =>
    simp only [skipElement, here.form.openBehind]
    split
    · exact later
    · exact ih _ _ _

/-- What a range does not hold, no range inside of it holds. -/
theorem containsSpan_of_le {start stop first last : Nat} {place : Span} (le : start ≤ first)
    (ge : last ≤ stop) (outer : (⟨start, stop⟩ : Span).containsSpan place = false) :
    (⟨first, last⟩ : Span).containsSpan place = false := by
  simp only [Span.containsSpan, Bool.and_eq_false_iff, decide_eq_false_iff_not] at outer ⊢
  omega

/-- What is passed over is the same if no name in it is renamed. -/
theorem source_skipElement_renamed {all again : List Piece} (count : Nat) {start : Nat} (stop : Nat)
    (run : PieceRun source start all) (same : List.Forall₂ (Piece.Renames relabel) all again)
    (apart : ∀ place ∈ relabel.all,
      (⟨start, (skipElement count start all).stop⟩ : Span).containsSpan place = false) :
    (skipElement count stop again).source = (skipElement count start all).source := by
  induction same generalizing count start stop with
  | nil => rfl
  | @cons piece other rest more here later ih =>
    obtain ⟨rfl, placed, left⟩ := run
    have order := placed.reads.start_le_stop
    simp only [skipElement, here.form.openBehind] at apart ⊢
    split
    next closed =>
      rw [if_pos closed] at apart
      rw [here.source apart]
    next still =>
      rw [if_neg still] at apart
      obtain ⟨reads, _⟩ := skipElement_reads (openBehind count piece.form) left
      have inside := reads.start_le_stop
      rw [here.source fun place member => containsSpan_of_le (Nat.le_refl _) inside
          (apart place member),
        ih _ _ left fun place member => containsSpan_of_le order (Nat.le_refl _)
          (apart place member)]

end Assemblies

/-! ### Assembling -/

/-- A text begins with a close tag of a name, in letters of either case. -/
def beginsClose (name text : String) : Bool :=
  match text.toList with
  | '<' :: '/' :: rest =>
    equalIgnoringCase (String.ofList (rest.takeWhile isNameContinue)) name
  | _ => false

/-- A piece that is a close tag is read from the tokens of a source. -/
def Piece.IsRead (tags : LiteralTags) (source : String) (piece : Piece) : Prop :=
  ∀ tag, piece.form = .closing tag → tag.IsRead tags source

/-- **A close tag begins with its name.** -/
theorem beginsClose_source {piece : Piece} {tag : CloseTag} (placed : piece.IsPlaced source)
    (read : tag.IsRead tags source) (form : piece.form = .closing tag) (name : String) :
    beginsClose name piece.source = equalIgnoringCase tag.name name := by
  obtain ⟨front, behind, here, start, place⟩ := read.tagAt
  obtain ⟨_, _, within⟩ := read.name_within
  obtain ⟨⟨before, after, whole, spot⟩, fits⟩ := placed
  rw [form] at fits
  obtain ⟨_, span⟩ := fits
  have size : byteLength before = byteLength (spelling front) := by
    rw [← start, span, spot]
  rw [List.append_assoc] at whole
  obtain ⟨rfl, text⟩ := append_inj_of_byteLength (whole.symm.trans here.whole) size
  -- The piece goes on at least up to the end of the name.
  have long : byteLength (tagMark .closingOpenBracket ++ tag.name.toList) ≤
      byteLength piece.source.toList := by
    have stop : tag.nameSpan.stop ≤ piece.span.stop := span ▸ within
    rw [place, spot] at stop
    simp only [nameStart, byteLength_append] at stop ⊢
    omega
  rw [← List.append_assoc] at text
  obtain ⟨tail, spelled, rfl⟩ : ∃ tail, piece.source.toList =
      tagMark .closingOpenBracket ++ tag.name.toList ++ tail ∧ behind = tail ++ after := by
    rcases List.append_eq_append_iff.mp text with ⟨tail, longer, rfl⟩ | ⟨tail, longer, rfl⟩
    · rw [longer, byteLength_append] at long
      obtain rfl : tail = [] := by
        by_contra some
        have := byteLength_pos some
        omega
      exact ⟨[], by rw [longer, List.append_nil, List.append_nil], rfl⟩
    · exact ⟨tail, longer, rfl⟩
  have ends : EndsName tail := fun char member => by
    refine here.ends char ?_
    cases tail with
    | nil => cases member
    | cons => exact member
  have mark : tagMark .closingOpenBracket = ['<', '/'] := rfl
  unfold beginsClose
  rw [spelled, mark]
  simp only [List.cons_append, List.nil_append, takeWhile_name here.proper ends,
    String.ofList_toList]

/-- What an element under another name needs of a tree: no text between tags holds a name that is
renamed, the close tag of an element is renamed with its open tag, and in an element that is renamed
no text begins with a close tag of the other name. -/
structure Relabel.Separates (relabel : Relabel) (top : Node) : Prop where
  texts : ∀ parent text, top.Below parent → ¬ parent.IsOfTag → .text text ∈ parent.children →
    ∀ place ∈ relabel.all, text.span.containsSpan place = false
  closes : ∀ element, top.Below (.element element) → ∀ close ∈ element.closing,
    (element.opening.nameSpan ∈ relabel.opens ↔ close.nameSpan ∈ relabel.closes)
  strays : ∀ element, top.Below (.element element) → element.opening.nameSpan ∈ relabel.opens →
    ∀ text, Content.text text ∈ element.children → beginsClose relabel.new text.value = false

theorem Relabel.Separates.text {text : TextNode} {opened : List OpenElement}
    (separate : relabel.Separates top) (root : ¬ top.IsOfTag)
    (adds : Assembly.Adds top (.text text) opened) :
    ∀ place ∈ relabel.all, text.span.containsSpan place = false := by
  cases adds with
  | root member => exact separate.texts top text .refl root member
  | inner below _ member =>
    exact separate.texts _ text below id (Element.node_mem_of_children member)

section Assembling

variable {one other : Assembly}

theorem equalIgnoringCase_comm (first second : String) :
    equalIgnoringCase first second = equalIgnoringCase second first := by
  unfold equalIgnoringCase
  exact decide_eq_decide.mpr eq_comm

/-- A close tag that matches does so under other names, too. -/
theorem closes_renamed {innermost : OpenElement} {tag : OpenTag} {close last : CloseTag}
    (opening : innermost.tag.Renames relabel tag) (closing : close.Renames relabel last)
    (separate : relabel.Separates top)
    (below : top.Below (.element (innermost.finish (some close))))
    (same : equalIgnoringCase innermost.tag.name close.name = true) :
    equalIgnoringCase tag.name last.name = true := by
  have together := separate.closes _ below close rfl
  have name := opening.name
  unfold Relabel.Opens at name
  unfold CloseTag.Renames Relabel.Closes at closing
  by_cases renamed : innermost.tag.nameSpan ∈ relabel.opens
  · rw [if_pos renamed] at name
    rw [if_pos (together.mp renamed)] at closing
    rw [name.2, closing]
    exact decide_eq_true rfl
  · rw [if_neg renamed] at name
    rw [if_neg fun member => renamed (together.mpr member)] at closing
    rw [name, closing]
    exact same

/-- A close tag that does not match does not do so under other names. -/
theorem strays_renamed {innermost : OpenElement} {outer : List OpenElement} {tag : OpenTag}
    {close last : CloseTag} {text : String} (opening : innermost.tag.Renames relabel tag)
    (closing : close.Renames relabel last) (within : (Node.closeTag close).Holds close.nameSpan)
    (begins : beginsClose relabel.new text = equalIgnoringCase close.name relabel.new)
    (root : ¬ top.IsOfTag) (separate : relabel.Separates top)
    (adds : Assembly.Adds top (.text ⟨text, close.span⟩) (innermost :: outer))
    (differs : equalIgnoringCase innermost.tag.name close.name = false) :
    equalIgnoringCase tag.name last.name = false := by
  have apart := separate.text root adds
  have kept : close.nameSpan ∉ relabel.closes := fun member => by
    have absurd := apart _ (List.mem_append_right _ member)
    obtain ⟨start, _, stop⟩ := within
    simp only [Span.containsSpan, Bool.and_eq_false_iff, decide_eq_false_iff_not] at absurd
    exact absurd.elim (fun less => less start) fun less => less stop
  have name := opening.name
  unfold Relabel.Opens at name
  rw [show last.name = close.name from (if_neg kept).mp closing]
  cases adds with
  | @inner _ _ element below found member =>
    by_cases renamed : innermost.tag.nameSpan ∈ relabel.opens
    · rw [if_pos renamed] at name
      rw [name.2, equalIgnoringCase_comm, ← begins]
      exact separate.strays element below (found ▸ renamed) _ member
    · rw [if_neg renamed] at name
      rw [name]
      exact differs

/-- **What one piece preserves.** -/
theorem Assembly.Renames.step {piece again : Piece} (same : one.Renames relabel other)
    (here : piece.Renames relabel again) (placed : piece.IsPlaced source)
    (read : piece.IsRead tags source) (root : ¬ top.IsOfTag) (separate : relabel.Separates top)
    (leads : (one.step piece).1.Leads top) :
    (one.step piece).1.Renames relabel (other.step again).1 := by
  have begins := fun tag form => beginsClose_source placed (read tag form) form relabel.new
  obtain ⟨_, fits⟩ := placed
  obtain ⟨form, problems, text, span⟩ := piece
  obtain ⟨shape, faults, string, range⟩ := again
  obtain ⟨alike, copied⟩ := here
  unfold Assembly.step at leads ⊢
  simp only at alike copied begins fits leads ⊢
  cases alike with
  | leaf content => exact same.add content
  | literal tag body closed => exact same.add (.element tag (.literal body))
  | opening terminator tag =>
    cases terminator with
    | selfClose => exact same.add (.element tag .selfClosing)
    | missing => exact same.add (.element tag (.children .nil))
    | close => exact ⟨.cons ⟨tag, .nil⟩ same.opened, same.contents⟩
  | @closing close last renamed =>
    obtain ⟨_, rfl⟩ := fits
    have within := (read close rfl).name_within
    -- A close tag that is kept as text has the same source under other names.
    have kept : (one.add (.text ⟨text, close.span⟩)).Leads top →
        (one.add (.text ⟨text, close.span⟩)).Renames relabel
          (other.add (.text ⟨string, last.span⟩)) := fun leads =>
      same.add (.text (copied (separate.text root leads.of_add.2)))
    obtain ⟨opened, contents⟩ := one
    obtain ⟨others, more⟩ := other
    obtain ⟨inner, outer⟩ := same
    cases inner with
    | nil => exact kept leads
    | @cons innermost element opened others first rest =>
      simp only at leads ⊢
      by_cases matched : equalIgnoringCase innermost.tag.name close.name = true
      · rw [if_pos matched] at leads ⊢
        have below := leads.of_close.2
        rw [if_pos (closes_renamed first.tag renamed separate below matched)]
        exact Assembly.Renames.close ⟨.cons first rest, outer⟩ (some close) (some last)
      · rw [if_neg matched] at leads ⊢
        have adds := (Assembly.Leads.of_add (show (Assembly.add ⟨innermost :: opened, contents⟩
          (.text ⟨text, close.span⟩)).Leads top from leads)).2
        have stray := strays_renamed first.tag renamed within (begins close rfl) root separate adds
          (Bool.eq_false_iff.mpr matched)
        rw [if_neg (Bool.eq_false_iff.mp stray)]
        exact kept leads

/-- **The contents that pieces make up under other names.** -/
theorem assemble_renamed {all again : List Piece} {start : Nat} (same : one.Renames relabel other)
    (pieces : List.Forall₂ (Piece.Renames relabel) all again) (run : PieceRun source start all)
    (read : ∀ piece ∈ all, piece.IsRead tags source) (root : ¬ top.IsOfTag)
    (separate : relabel.Separates top)
    (whole : ∀ content ∈ (assemble one all).1, content.node ∈ top.children) :
    List.Forall₂ (Content.Renames relabel) (assemble one all).1 (assemble other again).1 := by
  -- The induction is on the pieces that are left of the first assembly.
  induction one, all using assemble.induct generalizing other again start with
  | case1 assembly =>
    cases pieces
    rw [assemble, assemble]
    exact finishAll_renamed .nil same.contents same.opened
  | case2 assembly piece rest deep skipped span =>
    rename_i ih
    cases pieces with
    | @cons _ next _ more here later =>
      have nested : next.opensElement = true ∧ elementDepthLimit ≤ other.opened.length := by
        rw [here.opensElement, ← same.opened.length_eq]
        exact deep
      rw [assemble, if_pos deep] at whole ⊢
      rw [assemble, if_pos nested]
      obtain rfl := run.1
      obtain ⟨_, left⟩ := skipElement_reads 0 run
      have passed : List.Forall₂ (Piece.Renames relabel) (piece :: rest) (next :: more) :=
        .cons here later
      have text : (skipElement 0 next.span.start (next :: more)).source = skipped.source :=
        source_skipElement_renamed 0 next.span.start run passed
          (separate.text root (leads_assemble whole).of_add.2)
      refine ih (same.add (.text text)) (skipElement_renamed 0 _ _ passed) left ?_ whole
      exact fun other member => read other ((skipElement_suffix _ _ _).mem member)
  | case3 assembly piece rest shallow next found step =>
    rename_i ih
    cases pieces with
    | @cons _ second _ more here later =>
      have flat : ¬ (second.opensElement = true ∧ elementDepthLimit ≤ other.opened.length) := by
        rw [here.opensElement, ← same.opened.length_eq]
        exact shallow
      rw [assemble, if_neg shallow, step] at whole ⊢
      rw [assemble, if_neg flat]
      obtain ⟨rfl, placed, left⟩ := run
      obtain ⟨first, others⟩ := List.forall_mem_cons.mp read
      have leads : (assembly.step piece).1.Leads top := step ▸ leads_assemble whole
      have stepped := same.step here placed first root separate leads
      rw [step] at stepped
      exact ih stepped later left others whole

end Assembling

/-! ### Documents -/

section Documents

variable {element : Element} {new : String}

theorem openTag_mem_children (element : Element) :
    Node.openTag element.opening ∈ (Node.element element).children := List.mem_cons_self

theorem closeTag_mem_children {element : Element} {close : CloseTag}
    (member : close ∈ element.closing) :
    Node.closeTag close ∈ (Node.element element).children :=
  List.mem_cons_of_mem _ (List.mem_append_right _
    (List.mem_map_of_mem (Option.mem_toList.mpr member)))

/-- The tags of an element that have a name which is renamed with another element. -/
theorem mem_all_relabel {place : Span} (member : place ∈ (element.relabel new).all) :
    place = element.opening.nameSpan ∨ ∃ close ∈ element.closing, place = close.nameSpan := by
  rcases List.mem_cons.mp member with same | later
  · exact .inl same
  · obtain ⟨close, inside, same⟩ := Option.mem_map.mp (Option.mem_toList.mp later)
    exact .inr ⟨close, inside, same.symm⟩

section Below

variable (below : (Node.root (parse tags source).root).Below (.element element))
include below

theorem opening_holds : (Node.openTag element.opening).Holds element.opening.nameSpan :=
  (show element.opening.Opens tags source from
    parse_originates tags source _ (below.tail (openTag_mem_children element))).name_within

theorem closing_holds {close : CloseTag} (member : close ∈ element.closing) :
    (Node.closeTag close).Holds close.nameSpan :=
  (Element.closing_isRead (parse_originates tags source _ below) close member).name_within

/-- No other element has an open tag at the same place. -/
theorem eq_of_opening {other : Element}
    (there : (Node.root (parse tags source).root).Below (.element other))
    (same : other.opening.nameSpan = element.opening.nameSpan) : other = element :=
  (placed_parse tags source).element_unique there below (openTag_mem_children other) trivial
    (opening_holds there) (openTag_mem_children element) trivial (same ▸ opening_holds below)

/-- No other element has a close tag at the same place. -/
theorem eq_of_closing {other : Element} {close last : CloseTag}
    (there : (Node.root (parse tags source).root).Below (.element other))
    (inside : last ∈ other.closing) (member : close ∈ element.closing)
    (same : last.nameSpan = close.nameSpan) : other = element :=
  (placed_parse tags source).element_unique there below (closeTag_mem_children inside) trivial
    (closing_holds there inside) (closeTag_mem_children member) trivial
    (same ▸ closing_holds below member)

/-- **The tags of an element of a tree can be renamed** if no text in it begins with a close tag of
the other name. -/
theorem separates_relabel
    (strays : ∀ text, Content.text text ∈ element.children → beginsClose new text.value = false) :
    (element.relabel new).Separates (Node.root (parse tags source).root) where
  texts := by
    intro parent text around content member place renamed
    obtain ⟨tag, inside, isTag, differs, holds⟩ : ∃ tag : Node,
        tag ∈ (Node.element element).children ∧ tag.IsOfTag ∧ tag ≠ .text text ∧
          tag.Holds place := by
      rcases mem_all_relabel renamed with rfl | ⟨close, closes, rfl⟩
      · exact ⟨_, openTag_mem_children element, trivial, Node.noConfusion, opening_holds below⟩
      · exact ⟨_, closeTag_mem_children closes, trivial, Node.noConfusion,
          closing_holds below closes⟩
    have apart := (placed_parse tags source).apart_of_text around content member
      (below.tail inside) isTag differs
    by_contra held
    simp only [Bool.not_eq_false, Span.containsSpan, Bool.and_eq_true, decide_eq_true_eq] at held
    have whole : (Node.text text).Holds place := ⟨held.1, holds.2.1, held.2⟩
    exact whole.not_apart holds apart
  closes := by
    intro other there close member
    constructor
    · intro renamed
      obtain rfl := eq_of_opening below there (List.mem_singleton.mp renamed)
      exact Option.mem_toList.mpr (Option.mem_map_of_mem _ member)
    · intro renamed
      obtain ⟨last, inside, same⟩ := Option.mem_map.mp (Option.mem_toList.mp renamed)
      obtain rfl := eq_of_closing below there member inside same.symm
      exact List.mem_singleton_self _
  strays := by
    intro other there renamed text member
    obtain rfl := eq_of_opening below there (List.mem_singleton.mp renamed)
    exact strays text member

/-- **The tree of a source with an element under another name** is the same but for that name. The
other name has to be literal if the old one is, and no close tag of it may stand in the element. -/
theorem parse_renamed (proper : isName new.toList = true)
    (same : tags.contains new = tags.contains element.name)
    (free : ∀ body, element.body = .literal body →
      ∀ occurrence, occurrence <:+: body.value.toList → ¬ IsCloseTag new.toList occurrence)
    (strays : ∀ text, Content.text text ∈ element.children → beginsClose new text.value = false) :
    List.Forall₂ (Content.Renames (element.relabel new)) (parse tags source).root.children
      (parse tags (element.respelled source new)).root.children := by
  have run := Run.tokenize tags source
  have tokens := renamed_tokenize (respells_of_below below proper same free)
  have read : ∀ piece ∈ pieces tags (tokenize tags source), piece.IsRead tags source := by
    intro piece member tag form
    have origin := pieces_originates run piece member
    rw [form] at origin
    exact origin
  exact assemble_renamed ⟨.nil, .nil⟩ (pieces_renamed same run tokens) (pieces_run run) read id
    (separates_relabel below strays) fun content member => List.mem_map_of_mem member

end Below

end Documents

end PromptMarkup.Markup
