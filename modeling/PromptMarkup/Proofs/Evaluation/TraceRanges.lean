/-
**Ranges in a trace.**

Where nothing is included, every record of a trace keeps the range of its expression in the source.
The one exception are declarations of schemas whose bodies are not literal: their texts are put
together and taken to start where the open tag ends, which is in front of its closing bracket.

* `TraceKey.Selects`: the source has the expression of a record at its range;
* `attributeKeys_select`, `schemaKeys_reads`, `isAllowed_of_isPlaced`: the places that elements are
  evaluated at;
* `recorded`: the records of a trace are those allowed, which every step keeps;
* `evaluateDocument_selects`: the ranges of all records of a document.
-/

import PromptMarkup.Proofs.Evaluation.Walk
import PromptMarkup.Proofs.Markup.NodeOrigins
import PromptMarkup.Proofs.Schema.BodyPlaces

namespace PromptMarkup

open Markup

variable {source : String}

/-! ### Expressions in the source -/

/-- The source has the expression of a record at its range. If it is no body that is an expression,
it may stand between braces there. -/
def TraceKey.Selects (source : String) (key : TraceKey) : Prop :=
  key.span.Reads source key.expression ∨
    key.kind ≠ .evalBlock ∧ key.span.ReadsTemplate source key.expression

theorem templateKey_selects {kind : TraceKind} {template : Template} (free : kind ≠ .evalBlock)
    (braced : (Node.template template).IsBraced source) :
    (templateKey kind template).Selects source := .inr ⟨free, braced template .refl⟩

/-- **The places that an attribute may be evaluated at.** -/
theorem attributeKeys_select {pair : Attribute} (placed : (Node.pair pair).IsPlaced source)
    (braced : (Node.pair pair).IsBraced source) :
    ∀ key ∈ attributeKeys pair, key.Selects source := by
  obtain ⟨name, nameSpan, value, span⟩ := pair
  cases value with
  | none => exact List.forall_mem_nil _
  | some value =>
    have below : value.node ∈ (Node.pair ⟨name, nameSpan, some value, span⟩).children :=
      List.mem_cons_self
    have reads := (placed.child below).fits.reads
    cases value with
    | quoted quoted => exact List.forall_mem_singleton.mpr (.inl (reads _ List.mem_cons_self))
    | forIterator iterator =>
      have collection := reads (iterator.collection, iterator.collectionSpan)
        (List.mem_cons_of_mem _ List.mem_cons_self)
      exact List.forall_mem_singleton.mpr (.inl collection)
    | template template =>
      have here := Node.IsBraced.child braced below
      exact List.forall_mem_singleton.mpr (templateKey_selects (by decide) here)
    | quotedTemplate quoted =>
      intro key member
      obtain ⟨part, inside, found⟩ := List.mem_filterMap.mp member
      cases part with
      | text node => cases found
      | template template =>
        cases found
        have here : Node.template template ∈ (Node.quotedTemplate quoted).children :=
          List.mem_map_of_mem inside
        exact templateKey_selects (by decide) ((Node.IsBraced.child braced below).child here)

/-- What stands in a text that the source reads at a range is read at a part of the range. -/
theorem Span.Reads.of_standsAt {span : Span} {offset : Nat} {inner text : String}
    (reads : span.Reads source text)
    (stands : Schema.StandsAt offset inner.toList text.toList) :
    (⟨span.start + offset, span.start + offset + Text.byteLength inner.toList⟩ : Span).Reads source
      inner := by
  obtain ⟨front, back, parts, rfl⟩ := stands
  have inside := reads.inside parts
  rwa [String.ofList_toList] at inside

/-- **The places in the body of a declaration**, if the source reads the body somewhere behind where
it is taken to start. -/
theorem schemaKeys_reads {element : Element} {span : Span} {key : TraceKey}
    (reads : span.Reads source (Evaluate.declarationBody element).1)
    (le : (Evaluate.declarationBody element).2.start ≤ span.start)
    (member : key ∈ schemaKeys element) :
    (key.span.shift (span.start - (Evaluate.declarationBody element).2.start)).Reads source
      key.expression := by
  unfold schemaKeys at member
  generalize Evaluate.declarationBody element = declaration at reads le member ⊢
  obtain ⟨body, around⟩ := declaration
  simp only at reads le member ⊢
  rcases List.mem_cons.mp member with rfl | member
  · have inside := reads.of_standsAt (Schema.declaredExpression_standsAt body)
    have same : (expressionKey body around.start).span.shift (span.start - around.start) =
        ⟨span.start + (Schema.declaredExpression body).2, span.start +
          (Schema.declaredExpression body).2 +
            Text.byteLength (Schema.declaredExpression body).1.toList⟩ := by
      simp only [expressionKey, Span.shift, Span.mk.injEq]
      omega
    rw [same]
    exact inside
  · obtain ⟨part, here, found⟩ := List.mem_filterMap.mp member
    cases part with
    | text chars => cases found
    | template expression place =>
      cases found
      obtain ⟨stands, stop⟩ := Schema.bodyParts_standsAt here
      have inside := reads.of_standsAt stands
      have same : (place.shift around.start).shift (span.start - around.start) =
          ⟨span.start + place.start,
            span.start + place.start + Text.byteLength expression.toList⟩ := by
        simp only [Span.shift, stop, Span.mk.injEq]
        omega
      rw [same]
      exact inside

/-- **The places in the body of a declaration that is literal or closes itself.** -/
theorem schemaKeys_select {element : Element} (placed : (Node.element element).IsPlaced source)
    (simple : ∀ contents, element.body ≠ .children contents) :
    ∀ key ∈ schemaKeys element, key.Selects source := by
  intro key member
  have exact : ∀ span : Span, span.Reads source (Evaluate.declarationBody element).1 →
      (Evaluate.declarationBody element).2.start = span.start → key.Selects source := by
    intro span reads same
    have shifted := schemaKeys_reads reads same.le member
    rw [same, Nat.sub_self] at shifted
    exact .inl shifted
  obtain ⟨opening, body, closing, span⟩ := element
  cases body with
  | children contents => exact absurd rfl (simple contents)
  | literal text =>
    have below : Node.text text ∈ (Node.element ⟨opening, .literal text, closing, span⟩).children :=
      List.mem_cons_of_mem _ List.mem_cons_self
    exact exact text.span ((placed.child below).fits.reads _ List.mem_cons_self) rfl
  | selfClosing => exact exact ⟨span.stop, span.stop⟩ (.empty placed.fits.stop_isValid) rfl

/-- An element declares a schema. -/
def Settings.Declares (settings : Settings) (element : Element) : Prop :=
  settings.Names element .outputSchema ∨ settings.Names element .toolDefinition

/-- A record is of the body of a declaration that is not literal. If the body is one text, the range
of the record is ahead of its expression by as much as the body is taken to start ahead of the
text. -/
structure TraceKey.IsAhead (settings : Settings) (source : String) (element : Element)
    (key : TraceKey) : Prop where
  declares : settings.Declares element
  structured : ∃ contents, element.body = .children contents
  member : key ∈ schemaKeys element
  ahead : ∀ node, element.body = .children [.text node] →
    element.bodySpan.start ≤ node.span.start ∧
      (key.span.shift (node.span.start - element.bodySpan.start)).Reads source key.expression

/-- **The places in the body of a declaration that is not literal.** -/
theorem schemaKeys_isAhead {settings : Settings} {element : Element}
    (placed : (Node.element element).IsPlaced source) (declares : settings.Declares element)
    (structured : ∃ contents, element.body = .children contents) :
    ∀ key ∈ schemaKeys element, key.IsAhead settings source element := by
  intro key member
  refine ⟨declares, structured, member, fun node single => ?_⟩
  have below : Node.text node ∈ (Node.element element).children := by
    rw [Node.children, single]
    exact List.mem_cons_of_mem _ List.mem_cons_self
  have declared : Evaluate.declarationBody element = (node.value, element.bodySpan) := by
    simp only [Evaluate.declarationBody, single, Body.plainText, plainText, plainTextOf,
      String.append_empty]
  have reads : node.span.Reads source (Evaluate.declarationBody element).1 := by
    rw [declared]
    exact (placed.child below).fits.reads _ List.mem_cons_self
  have le : element.bodySpan.start ≤ node.span.start := by
    have row := placed.fits.apart
    rw [Node.children, single] at row
    have apart : element.opening.span.stop ≤ node.span.start :=
      (List.pairwise_cons.mp row).1 _ List.mem_cons_self
    unfold Element.bodySpan
    rw [single]
    exact Nat.le_trans (Nat.min_le_left _ _) apart
  have shifted := schemaKeys_reads reads (by rw [declared]; exact le) member
  rw [declared] at shifted
  exact ⟨le, shifted⟩

/-- **The places that an element is evaluated at.** -/
theorem isAllowed_of_isPlaced {settings : Settings} {element : Element}
    (placed : (Node.element element).IsPlaced source)
    (braced : (Node.element element).IsBraced source) :
    IsAllowed settings.registry
      (fun key => key.Selects source ∨ key.IsAhead settings source element) (fun _ => True)
      element := by
  have tag : Node.openTag element.opening ∈ (Node.element element).children := List.mem_cons_self
  refine ⟨fun pair member => ⟨fun key place => ⟨?_, trivial⟩, trivial, trivial⟩, ?_,
    element.isReported_anywhere⟩
  · have inside : Node.pair pair ∈ (Node.openTag element.opening).children :=
      List.mem_map_of_mem member
    exact .inl (attributeKeys_select ((placed.child tag).child inside)
      ((Node.IsBraced.child braced tag).child inside) key place)
  · intro declares key place
    by_cases structured : ∃ contents, element.body = .children contents
    · exact .inr (schemaKeys_isAhead placed declares structured key place)
    · exact .inl (schemaKeys_select placed (not_exists.mp structured) key place)

/-- What is allowed in one sense is allowed in a wider one. -/
theorem IsAllowed.mono {registry : Registry} {allowed wider : TraceKey → Prop}
    {places : Span → Prop} {element : Element} (fits : IsAllowed registry allowed places element)
    (more : ∀ key, allowed key → wider key) : IsAllowed registry wider places element := by
  refine ⟨fun pair member => ?_, fun declares key place => ?_, fits.reports⟩
  · obtain ⟨keys, value, whole⟩ := fits.attributes pair member
    exact ⟨fun key place => (keys key place).imp_left (more key), value, whole⟩
  · exact more key (fits.schema declares key place)

/-! ### Records -/

theorem key_of_mem_addTo {key : TraceKey} {value : TraceValue} {record : TraceRecord}
    {records : List TraceRecord}
    (member : record ∈ Trace.addTo key.span key.expression key.kind value records) :
    record.key = key ∨ ∃ other ∈ records, record.key = other.key := by
  induction records with
  | nil =>
    obtain rfl := List.mem_singleton.mp member
    exact .inl rfl
  | cons first rest ih =>
    rw [Trace.addTo] at member
    split at member
    · rcases List.mem_cons.mp member with rfl | later
      · exact .inr ⟨first, List.mem_cons_self, rfl⟩
      · exact .inr ⟨record, List.mem_cons_of_mem _ later, rfl⟩
    · rcases List.mem_cons.mp member with rfl | later
      · exact .inr ⟨record, List.mem_cons_self, rfl⟩
      · rcases ih later with here | ⟨other, inside, same⟩
        · exact .inl here
        · exact .inr ⟨other, List.mem_cons_of_mem _ inside, same⟩

/-- Evaluations at the places allowed leave no record of another one. -/
def recorded (settings : Settings) (allowed : TraceKey → Prop) : Invariant settings allowed where
  holds state := (∀ record ∈ state.trace.records, allowed record.key) ∧
    state.registry.Resembles settings.registry
  registry holds := holds.2
  frame := by
    intro state other holds trace _ registry
    refine ⟨?_, registry.trans holds.2⟩
    rw [trace]
    exact holds.1
  evaluated := by
    intro state key value holds here
    refine ⟨fun record member => ?_, holds.2⟩
    rcases key_of_mem_addTo member with same | ⟨other, inside, same⟩
    · rw [same]
      exact here
    · rw [same]
      exact holds.1 other inside

/-! ### Elements of a document -/

namespace Markup

mutual

/-- The elements in some contents, however deep. -/
def elementsAmong : List Content → List Element
  | [] => []
  | content :: rest => elementsOf content ++ elementsAmong rest

/-- The elements that some content is or has in it. -/
def elementsOf : Content → List Element
  | .element ⟨opening, body, closing, span⟩ => ⟨opening, body, closing, span⟩ :: elementsIn body
  | _ => []

/-- The elements in a body. -/
def elementsIn : Body → List Element
  | .children contents => elementsAmong contents
  | _ => []

end

/-- The elements of a document. -/
def Root.elements (root : Root) : List Element := elementsAmong root.children

theorem mem_elementsAmong {element : Element} {contents : List Content} :
    element ∈ elementsAmong contents ↔ ∃ content ∈ contents, element ∈ elementsOf content := by
  induction contents with
  | nil => exact ⟨nofun, fun ⟨_, absurd, _⟩ => nomatch absurd⟩
  | cons content rest ih => rw [elementsAmong, List.mem_append, ih, List.exists_mem_cons_iff]

/-- The elements that a node is or has below it. -/
def Node.elements : Node → List Element
  | root node => node.elements
  | element node => elementsOf (.element node)
  | _ => []

theorem elements_node (content : Content) : content.node.elements = elementsOf content := by
  cases content <;> rfl

theorem Node.elements_child {node child : Node} (member : child ∈ node.children) :
    child.elements ⊆ node.elements := by
  intro element inside
  cases node with
  | root node =>
    obtain ⟨content, here, rfl⟩ := List.mem_map.mp member
    rw [elements_node] at inside
    exact mem_elementsAmong.mpr ⟨content, here, inside⟩
  | element node =>
    obtain ⟨opening, body, closing, span⟩ := node
    rcases List.mem_cons.mp member with rfl | member
    · cases inside
    · rcases List.mem_append.mp member with member | member
      · refine List.mem_cons_of_mem _ ?_
        cases body with
        | selfClosing => cases member
        | literal text =>
          obtain rfl := List.mem_singleton.mp member
          cases inside
        | children contents =>
          obtain ⟨content, here, rfl⟩ := List.mem_map.mp member
          rw [elements_node] at inside
          exact mem_elementsAmong.mpr ⟨content, here, inside⟩
      · obtain ⟨tag, _, rfl⟩ := List.mem_map.mp member
        cases inside
  | openTag node =>
    obtain ⟨pair, _, rfl⟩ := List.mem_map.mp member
    cases inside
  | pair node =>
    obtain ⟨value, _, rfl⟩ := List.mem_map.mp member
    cases value <;> cases inside
  | quotedTemplate node =>
    obtain ⟨part, _, rfl⟩ := List.mem_map.mp member
    cases part <;> cases inside
  | closeTag | template | comment | pragma | text | quoted | forIterator => cases member

/-- Every element below a document is among its elements. -/
theorem Root.mem_elements {root : Root} {element : Element}
    (below : (Node.root root).Below (.element element)) : element ∈ root.elements := by
  have all : ∀ node, (Node.root root).Below node → node.elements ⊆ root.elements := by
    intro node below
    induction below with
    | refl => exact List.Subset.refl _
    | tail _ member ih => exact List.Subset.trans (Node.elements_child member) ih
  refine all _ below ?_
  obtain ⟨opening, body, closing, span⟩ := element
  exact List.mem_cons_self

section Below

variable {top : Node} {element : Element}

mutual

theorem below_of_mem_elementsAmong (contents : List Content)
    (below : ∀ content ∈ contents, top.Below content.node)
    (member : element ∈ elementsAmong contents) : top.Below (.element element) :=
  match contents with
  | [] => nomatch member
  | content :: rest => by
    obtain ⟨here, later⟩ := List.forall_mem_cons.mp below
    rcases List.mem_append.mp member with inside | behind
    · exact below_of_mem_elementsOf content here inside
    · exact below_of_mem_elementsAmong rest later behind

theorem below_of_mem_elementsOf (content : Content) (below : top.Below content.node)
    (member : element ∈ elementsOf content) : top.Below (.element element) :=
  match content with
  | .element ⟨opening, body, closing, span⟩ => by
    rcases List.mem_cons.mp member with rfl | inside
    · exact below
    · refine below_of_mem_elementsIn body (fun node among => below.tail ?_) inside
      exact List.mem_cons_of_mem _ (List.mem_append_left _ among)
  | .template _ | .comment _ | .pragma _ | .text _ => nomatch member

theorem below_of_mem_elementsIn (body : Body)
    (below : ∀ node ∈ Node.bodyNodes body, top.Below node)
    (member : element ∈ elementsIn body) : top.Below (.element element) :=
  match body with
  | .children contents => below_of_mem_elementsAmong contents
      (fun _ among => below _ (List.mem_map_of_mem among)) member
  | .selfClosing | .literal _ => nomatch member

end

end Below

/-- The elements of a document stand below it. -/
theorem Root.below_of_mem_elements {root : Root} {element : Element}
    (member : element ∈ root.elements) : (Node.root root).Below (.element element) :=
  below_of_mem_elementsAmong root.children (fun _ among => .single (List.mem_map_of_mem among))
    member

end Markup

/-! ### Documents -/

instance (settings : Settings) (element : Element) (kind : ComponentKind) :
    Decidable (settings.Names element kind) :=
  decidable_of_iff
    (((settings.registry.named? element.name).map Component.kind) = some kind)
    Option.map_eq_some_iff

/-- **The ranges of the records of a document** without includes, whatever its context and whatever
fails. At the range of every record the source has its expression, alone or between braces, unless
the record is of a declaration whose body is not literal. A body of one text is missed by the bytes
between its open tag and the text. -/
theorem evaluateDocument_selects (settings : Settings) (loader : Loader) (scope : Scope)
    (tags : LiteralTags) (source : String)
    (alone : ∀ element ∈ (parse tags source).root.elements,
      ¬ settings.Names element .inclusion) :
    ∀ record ∈ (evaluateDocument settings loader scope (parse tags source).root).trace.records,
      record.key.Selects source ∨ ∃ element ∈ (parse tags source).root.elements,
        record.key.IsAhead settings source element := by
  have placed := placed_parse tags source
  have braced := parse_isBraced tags source
  generalize (parse tags source).root = root at alone placed braced ⊢
  have kept : (recorded settings fun key => key.Selects source ∨ ∃ element ∈ root.elements,
      key.IsAhead settings source element).Kept
        (Evaluate.evaluateFile settings (loader.depthLimit + 1) root) := by
    apply Evaluate.kept_evaluateFile
    · intro template below
      exact .inl (templateKey_selects (by decide) (braced.below below))
    · intro element below
      have here : (Node.element element).IsPlaced source :=
        fun node later => placed node (below.trans later)
      refine (isAllowed_of_isPlaced here (braced.below below)).mono fun key place => ?_
      rcases place with selects | ahead
      · exact .inl selects
      · exact .inr ⟨element, Root.mem_elements below, ahead⟩
    · intro element below includes
      exact absurd includes (alone element (Root.mem_elements below))
  exact (kept _ ⟨List.forall_mem_nil _, .refl _⟩).1

/-- What a source evaluates to where there are no files and no names. -/
def evaluateAlone (source : String) : Evaluation :=
  evaluateDocument .standard ⟨.ofTable [], "/docs", Loader.standardDepthLimit, []⟩ (.ofFrame [])
    (parse .standard source).root

/-- A loop over a text and an attribute with templates. -/
theorem evaluateDocument_selects_loop :
    let source := "<p for=\"i in ['a']\" id=\"\x7b\x7b i \x7d\x7d\">\x7b\x7bi\x7d\x7d</p>"
    let run := evaluateAlone source
    run.trace.records.map TraceRecord.key =
        [⟨⟨13, 18⟩, "['a']", .attributeExpression⟩, ⟨⟨24, 31⟩, "i", .attributeExpression⟩,
          ⟨⟨33, 38⟩, "i", .template⟩] ∧
      (∀ element ∈ (parse .standard source).root.elements,
        ¬ Settings.standard.Names element .inclusion) ∧
      ∀ record ∈ run.trace.records, record.key.Selects source ∨
        ∃ element ∈ (parse .standard source).root.elements,
          record.key.IsAhead .standard source element := by
  intro source run
  have keys : run.trace.records.map TraceRecord.key =
      [⟨⟨13, 18⟩, "['a']", .attributeExpression⟩, ⟨⟨24, 31⟩, "i", .attributeExpression⟩,
        ⟨⟨33, 38⟩, "i", .template⟩] := by decide +kernel
  have alone : ∀ element ∈ (parse .standard source).root.elements,
      ¬ Settings.standard.Names element .inclusion := by decide +kernel
  exact ⟨keys, alone, evaluateDocument_selects .standard _ _ .standard source alone⟩

/-- The body of a declaration by its other name is not literal, and its range holds the closing
bracket of the open tag. -/
theorem trace_not_selects_declaration :
    let source := "<response-schema>z.string()</response-schema>"
    (∀ element ∈ (parse .standard source).root.elements,
        ¬ Settings.standard.Names element .inclusion) ∧
      (evaluateAlone source).trace.records.map TraceRecord.key =
        [⟨⟨16, 26⟩, "z.string()", .evalBlock⟩] ∧
      ∃ record ∈ (evaluateAlone source).trace.records, ¬ record.key.Selects source := by
  intro source
  have alone : ∀ element ∈ (parse .standard source).root.elements,
      ¬ Settings.standard.Names element .inclusion := by decide +kernel
  have keys : (evaluateAlone source).trace.records.map TraceRecord.key =
      [⟨⟨16, 26⟩, "z.string()", .evalBlock⟩] := by decide +kernel
  refine ⟨alone, keys, ?_⟩
  have first : (⟨⟨16, 26⟩, "z.string()", .evalBlock⟩ : TraceKey) ∈
      (evaluateAlone source).trace.records.map TraceRecord.key := by
    rw [keys]
    exact List.mem_cons_self
  obtain ⟨record, member, same⟩ := List.mem_map.mp first
  refine ⟨record, member, ?_⟩
  rw [same]
  rintro (reads | ⟨other, _⟩)
  · exact absurd reads.extract (by decide)
  · exact other rfl

end PromptMarkup
