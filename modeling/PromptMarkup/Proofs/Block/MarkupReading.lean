/-
**Blocks as markup are read back.**

The written form of a block has one root and consists of tags and of characters, of which those of
texts and of values of attributes are escaped. Read back, it tells of every block its tag, the range
of the source and the blocks in it, of a text also what it says, and of any other block the rest of
its kind, how it is presented and who says it.

* `Block.Sketch`, `Block.sketch`: what the written form of a block tells of it;
* `Element.sketch?`: what an element tells of a block;
* `areAttributes_of_sublist`, `headAttributes_tell`: the attributes of a tag;
* `exists_markupAt`: the element that a block is written as;
* `presentDocument_readsBack`: the written form of the block of a document.
-/

import PromptMarkup.Block.Markup
import PromptMarkup.Proofs.Block.Positions
import PromptMarkup.Proofs.Output.ElementReading
import PromptMarkup.Proofs.Value.Fields

namespace PromptMarkup

open Xml (Element TagName attributeChars headChars AreAttributes Writes IsLine tagged)

/-! ### What a block tells -/

/-- What is told of a block. -/
structure Block.Sketch where
  tag : String
  /-- What is told of its kind besides the tag. -/
  details : List (String × String)
  /-- None of texts, of which this is not written. -/
  presentation : Option Presentation
  speaker : Option Speaker
  span : Span
  /-- What a text says. -/
  text : Option String
  children : List Block.Sketch

namespace Block

mutual

/-- What the written form of a block tells of it. -/
def sketch : Block → Sketch
  | ⟨.text value _, _, _, _, children, span⟩ =>
    ⟨"text", [], none, none, span, some value, sketchAll children⟩
  | ⟨kind, presentation, speaker, _, children, span⟩ =>
    ⟨kind.tag, kind.attributes, some presentation, speaker, span, none, sketchAll children⟩

/-- What is told of some blocks. -/
def sketchAll : List Block → List Sketch
  | [] => []
  | block :: rest => block.sketch :: sketchAll rest

end

/-- The names of the attributes of all kinds. -/
def kindNames : List String :=
  ["caption", "inline", "lang", "list-style", "columns", "rows", "value", "type", "alt", "id",
    "name", "parameters"]

end Block

/-- A number in decimal. -/
def readNumber? (text : String) : Option Nat :=
  if !text.toList.isEmpty && text.toList.all Char.isDigit then
    some (Nat.ofDigitChars 10 text.toList 0)
  else none

theorem readNumber?_toString (number : Nat) : readNumber? (toString number) = some number := by
  have digits : (toString number).toList = Nat.toDigits 10 number := by
    rw [Nat.toString_eq_repr, Nat.toList_repr]
  have all : (Nat.toDigits 10 number).all Char.isDigit := List.all_eq_true.mpr fun char member =>
    Nat.isDigit_of_mem_toDigits (by decide) (by decide) member
  have nonempty : (Nat.toDigits 10 number).isEmpty = false :=
    List.isEmpty_eq_false_iff.mpr Nat.toDigits_ne_nil
  rw [readNumber?, digits, nonempty, all, Nat.ofDigitChars_ten_toDigits]
  rfl

namespace Xml

mutual

/-- What an element tells of a block: everything is Markdown and of no speaker of its own unless it
says otherwise. -/
def Element.sketch? : Element → Option Block.Sketch
  | ⟨name, attributes, data, children⟩ => do
    let start ← (attributes.lookup "original-start-index").bind readNumber?
    let stop ← (attributes.lookup "original-end-index").bind readNumber?
    let details := attributes.filter fun pair => Block.kindNames.contains pair.1
    let inside ← sketchAll? children
    if name.text = "text" then return ⟨name.text, details, none, none, ⟨start, stop⟩, data, inside⟩
    else
      let presentation ← (attributes.lookup "syntax").elim (some .markdown) fun name =>
        (Presentation.read name).toOption
      let speaker ← (attributes.lookup "speaker").elim (some none) fun name =>
        (Speaker.read name).toOption.map some
      return ⟨name.text, details, some presentation, speaker, ⟨start, stop⟩, none, inside⟩

/-- What some elements tell of blocks. -/
def sketchAll? : List Element → Option (List Block.Sketch)
  | [] => some []
  | element :: rest => do return (← element.sketch?) :: (← sketchAll? rest)

end

end Xml

/-! ### Attributes of blocks -/

namespace Block

/-- The attributes that tell a range. -/
def rangeAttributes (span : Span) : List (String × String) :=
  [("original-start-index", toString span.start), ("original-end-index", toString span.stop)]

/-- The attributes of a block in order. -/
def headAttributes (kind : BlockKind) (presentation : Presentation) (speaker : Option Speaker)
    (span : Span) : List (String × String) :=
  (if presentation = .markdown then [] else [("syntax", presentation.name)]) ++
    (speaker.map fun speaker => ("speaker", speaker.name)).toList ++ kind.attributes ++
    rangeAttributes span

theorem toList_attributeText (name value : String) :
    (attributeText name value).toList = attributeChars (name, value) := by
  simp [attributeText, attributeChars, Text.escapeEntities]

theorem toList_rangeText (span : Span) :
    (rangeText span).toList = (rangeAttributes span).flatMap attributeChars := by
  simp [rangeText, rangeAttributes, toList_attributeText]

theorem toList_headText (kind : BlockKind) (presentation : Presentation)
    (speaker : Option Speaker) (span : Span) :
    (headText kind presentation speaker span).toList =
      (headAttributes kind presentation speaker span).flatMap attributeChars := by
  have joined : ∀ pairs : List (String × String),
      (String.join (pairs.map fun pair => attributeText pair.1 pair.2)).toList =
        pairs.flatMap attributeChars := fun pairs => by
    rw [String.toList_join, List.flatMap_map]
    exact congrArg (List.flatMap · pairs) (funext fun _ => toList_attributeText _ _)
  rw [headText, headAttributes]
  simp only [String.toList_append, List.flatMap_append, joined, toList_rangeText]
  congr 2
  congr 1
  · split
    · rfl
    · simp [toList_attributeText]
  · cases speaker with
    | none => rfl
    | some speaker => simp [toList_attributeText]

theorem names_attributes (kind : BlockKind) : (Fields.names kind.attributes).Sublist kindNames := by
  refine List.isSublist_iff_sublist.mp ?_
  cases kind with
  | code language _ => cases language <;> rfl
  | media clip =>
    obtain ⟨_, _, alt⟩ := clip
    cases alt <;> rfl
  | _ => rfl

/-- The names of all attributes of blocks in order. -/
def attributeNames : List String :=
  ["syntax", "speaker"] ++ kindNames ++ ["original-start-index", "original-end-index"]

theorem nodup_attributeNames : attributeNames.Nodup := by decide

/-- **A tag can have attributes of these names** when it has them in this order. -/
theorem areAttributes_of_sublist {attributes : List (String × String)}
    (names : (Fields.names attributes).Sublist attributeNames) : AreAttributes attributes := by
  refine ⟨fun pair member => ?_, nodup_attributeNames.sublist names⟩
  have proper : ∀ name ∈ attributeNames, Xml.isAttributeName name := by decide
  exact proper pair.1 (names.mem (List.mem_map_of_mem member))

theorem names_rangeAttributes (span : Span) :
    (Fields.names (rangeAttributes span)).Sublist attributeNames :=
  List.sublist_append_right (["syntax", "speaker"] ++ kindNames) _

section Attributes

variable (kind : BlockKind) (presentation : Presentation) (speaker : Option Speaker) (span : Span)

theorem names_headAttributes :
    (Fields.names (headAttributes kind presentation speaker span)).Sublist attributeNames := by
  have first : (Fields.names (if presentation = .markdown then []
      else [("syntax", presentation.name)])).Sublist ["syntax"] := by
    split
    · exact List.nil_sublist _
    · exact List.Sublist.refl _
  have second : (Fields.names (speaker.map fun speaker =>
      ("speaker", speaker.name)).toList).Sublist ["speaker"] := by
    cases speaker with
    | none => exact List.nil_sublist _
    | some => exact List.Sublist.refl _
  have all := ((first.append second).append (names_attributes kind)).append
    (List.Sublist.refl (Fields.names (rangeAttributes span)))
  rw [headAttributes]
  simpa [Fields.names, attributeNames, rangeAttributes] using all

/-- What is no name of an attribute of a kind is looked up in the rest. -/
theorem lookup_headAttributes {name : String} (other : name ∉ kindNames) :
    (headAttributes kind presentation speaker span).lookup name =
      (((if presentation = .markdown then [] else [("syntax", presentation.name)]).lookup name).or
        ((speaker.map fun speaker => ("speaker", speaker.name)).toList.lookup name)).or
          ((rangeAttributes span).lookup name) := by
  have absent : kind.attributes.lookup name = none :=
    Fields.lookup_eq_none.mpr fun member => other ((names_attributes kind).mem member)
  simp only [headAttributes, List.lookup_append, absent, Option.or_none]

/-- What an element tells of its block stands in its attributes. -/
theorem headAttributes_tell :
    (headAttributes kind presentation speaker span).filter
        (fun pair => kindNames.contains pair.1) = kind.attributes ∧
      (headAttributes kind presentation speaker span).lookup "syntax" =
        (if presentation = .markdown then none else some presentation.name) ∧
      (headAttributes kind presentation speaker span).lookup "speaker" =
        speaker.map Speaker.name ∧
      (headAttributes kind presentation speaker span).lookup "original-start-index" =
        some (toString span.start) ∧
      (headAttributes kind presentation speaker span).lookup "original-end-index" =
        some (toString span.stop) := by
  refine ⟨?_, ?_, ?_, ?_, ?_⟩
  · have kept : kind.attributes.filter (fun pair => kindNames.contains pair.1) = kind.attributes :=
      List.filter_eq_self.mpr fun pair member =>
        List.contains_iff_mem.mpr ((names_attributes kind).mem (List.mem_map_of_mem member))
    rw [headAttributes, List.filter_append, List.filter_append, List.filter_append, kept]
    split <;> cases speaker <;> exact List.append_nil _
  all_goals
    rw [lookup_headAttributes _ _ _ _ (by decide)]
    split <;> cases speaker <;> rfl

end Attributes

/-! ### Elements of blocks -/

theorem isTagName_tag (kind : BlockKind) : Xml.isTagName kind.tag := by
  cases kind with
  | inline style => cases style <;> decide
  | _ =>
    rw [BlockKind.tag]
    decide

/-- The tag of a kind as the name of an element. -/
def elementName (kind : BlockKind) : TagName := ⟨kind.tag, isTagName_tag kind⟩

theorem read_presentation (presentation : Presentation) :
    (if presentation = .markdown then none else some presentation.name).elim (some .markdown)
      (fun name => (Presentation.read name).toOption) = some presentation := by
  cases presentation <;> decide

theorem read_speaker (speaker : Option Speaker) :
    (speaker.map Speaker.name).elim (some none)
      (fun name => (Speaker.read name).toOption.map some) = some speaker := by
  cases speaker with
  | none => rfl
  | some speaker => cases speaker <;> decide

/-- **The attributes of an element tell the presentation, the speaker and the range.** -/
theorem sketch?_headAttributes {kind : BlockKind} (other : kind.tag ≠ "text")
    {children : List Element} {sketches : List Sketch}
    (inside : Xml.sketchAll? children = some sketches) (presentation : Presentation)
    (speaker : Option Speaker) (span : Span) (data : Option String) :
    (Element.mk (elementName kind) (headAttributes kind presentation speaker span) data
      children).sketch? =
        some ⟨kind.tag, kind.attributes, some presentation, speaker, span, none, sketches⟩ := by
  obtain ⟨details, syntaxName, speakerName, start, stop⟩ :=
    headAttributes_tell kind presentation speaker span
  rw [Element.sketch?, details, syntaxName, speakerName, start, stop, read_presentation,
    read_speaker, inside]
  simp only [Option.bind_eq_bind, Option.bind_some, readNumber?_toString]
  exact if_neg other

/-! ### Written blocks -/

section Written

variable (margin : String) (kind : BlockKind) (presentation : Presentation)
  (speaker : Option Speaker) (spacing : Spacing) (children : List Block) (span : Span)

/-- A text is an element around its characters. -/
theorem exists_markupAt_text (value : String) (exact : Bool) :
    ∃ chars element, IsLine margin
        (markupAt margin ⟨.text value exact, presentation, speaker, spacing, [], span⟩)
        chars element ∧
      element.sketch? =
        some (sketch ⟨.text value exact, presentation, speaker, spacing, [], span⟩) := by
  have proper : AreAttributes (rangeAttributes span) :=
    areAttributes_of_sublist (names_rangeAttributes span)
  refine ⟨_, _, ⟨?_, Xml.getLast?_tagged (elementName (.text value exact)) _ _,
    (Writes.escaped value.toList).element proper _⟩, ?_⟩
  · simp [markupAt, toList_rangeText, tagged, Text.escapeEntities, headChars, elementName,
      BlockKind.tag]
  · have start : (rangeAttributes span).lookup "original-start-index" =
      some (toString span.start) := rfl
    have stop : (rangeAttributes span).lookup "original-end-index" =
      some (toString span.stop) := rfl
    rw [Element.sketch?, start, stop, String.ofList_toList]
    simp only [Option.bind_eq_bind, Option.bind_some, readNumber?_toString]
    rfl

/-- A block of any other kind is a tag that closes itself, or two tags around its lines. -/
theorem markupAt_of_ne_text (other : kind.tag ≠ "text") :
    markupAt margin ⟨kind, presentation, speaker, spacing, children, span⟩ =
      if children.isEmpty then
        margin ++ "<" ++ kind.tag ++ headText kind presentation speaker span ++ "/>\n"
      else
        margin ++ "<" ++ kind.tag ++ headText kind presentation speaker span ++ ">\n" ++
          markupAllAt (margin ++ "  ") children ++ margin ++ "</" ++ kind.tag ++ ">\n" := by
  cases kind with
  | text => exact absurd rfl other
  | _ => rfl

theorem sketch_of_ne_text (other : kind.tag ≠ "text") :
    sketch ⟨kind, presentation, speaker, spacing, children, span⟩ =
      ⟨kind.tag, kind.attributes, some presentation, speaker, span, none, sketchAll children⟩ := by
  cases kind with
  | text => exact absurd rfl other
  | _ => rfl

end Written

theorem eq_text_of_tag {kind : BlockKind} (same : kind.tag = "text") :
    ∃ value exact, kind = .text value exact := by
  cases kind with
  | text value exact => exact ⟨value, exact, rfl⟩
  | inline style => cases style <;> exact absurd same (by decide)
  | _ =>
    rw [BlockKind.tag] at same
    exact absurd same (by decide)

mutual

/-- **A block is written as one element, which is read back and tells what the block is.** -/
theorem exists_markupAt {margin : String} (blank : Text.isBlankText margin) (block : Block)
    (bare : block.HasBareLeaves) :
    ∃ chars element, IsLine margin (block.markupAt margin) chars element ∧
      element.sketch? = some block.sketch := by
  obtain ⟨kind, presentation, speaker, spacing, children, span⟩ := block
  by_cases same : kind.tag = "text"
  · obtain ⟨value, exact, rfl⟩ := eq_text_of_tag same
    obtain rfl : children = [] := bare.here rfl
    exact exists_markupAt_text margin presentation speaker spacing span value exact
  · have proper : AreAttributes (headAttributes kind presentation speaker span) :=
      areAttributes_of_sublist (names_headAttributes kind presentation speaker span)
    rw [markupAt_of_ne_text _ _ _ _ _ _ _ same, sketch_of_ne_text _ _ _ _ _ _ same]
    cases children with
    | nil =>
      refine ⟨_, _, ⟨?_, Xml.getLast?_single _ _, .single proper (elementName kind)⟩,
        sketch?_headAttributes same rfl presentation speaker span none⟩
      simp [toList_headText, headChars, elementName]
    | cons first rest =>
      obtain ⟨data, elements, writes, told⟩ :=
        exists_markupAllAt (Xml.isBlankText_indented blank) (first :: rest)
          fun child member => bare.child member
      refine ⟨_, _, ⟨?_, Xml.getLast?_tagged _ _ _, writes.around blank proper (elementName kind)⟩,
        sketch?_headAttributes same told presentation speaker span _⟩
      simp [toList_headText, headChars, elementName, tagged]

/-- Blocks are written as elements, which tell what the blocks are. -/
theorem exists_markupAllAt {margin : String} (blank : Text.isBlankText margin)
    (blocks : List Block) (bare : ∀ block ∈ blocks, block.HasBareLeaves) :
    ∃ data elements, Writes (markupAllAt margin blocks).toList data elements ∧
      Xml.sketchAll? elements = some (sketchAll blocks) := by
  match blocks with
  | [] => exact ⟨[], [], .nil, rfl⟩
  | block :: rest =>
    obtain ⟨here, later⟩ := List.forall_mem_cons.mp bare
    obtain ⟨chars, element, line, told⟩ := exists_markupAt blank block here
    obtain ⟨data, elements, behind, more⟩ := exists_markupAllAt blank rest later
    refine ⟨_, _, line.followed blank behind, ?_⟩
    rw [Xml.sketchAll?, told, more]
    rfl

end

end Block

/-- **The written form of a document is read back.** It consists of tags, whose attributes have
escaped values, and of escaped characters, and these are one element with blanks around it that
tells what every block of the document is. -/
theorem presentDocument_readsBack (root : ComponentNode) :
    ∃ (tokens : List Xml.Token) (element : Element), (∀ token ∈ tokens, token.IsProper) ∧
      (presentDocument root).toMarkup.toList = tokens.flatMap Xml.Token.chars ∧
      Xml.read? (presentDocument root).toMarkup = some element ∧
      element.sketch? = some (presentDocument root).sketch := by
  have empty : Text.isBlankText "" := rfl
  obtain ⟨chars, element, line, told⟩ := Block.exists_markupAt empty (presentDocument root)
    (hasBareLeaves_presentDocument root)
  have writes : Writes (presentDocument root).toMarkup.toList ['\n'] [element] := by
    have followed : Writes (Block.markupAt "" (presentDocument root) ++ "").toList _ _ :=
      line.followed empty .nil
    rwa [String.append_empty] at followed
  have read := writes.read? rfl
  obtain ⟨tokens, proper, spelled, _⟩ := writes
  exact ⟨tokens, element, proper, spelled, read, told⟩

end PromptMarkup
