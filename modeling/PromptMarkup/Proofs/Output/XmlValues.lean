/-
**Values as XML are read back.**

The fields of an object are read from elements of their names, the items of an array from elements
named `item`, and what has no parts from the characters of an element. Keys stand in tags as they
are, and an object or array without parts is written like the text that is the space between its
tags. A value is read back exactly when its keys are names that a tag can have and no text in it is
such a space.

* `Decimal.isNumeralPart_write`, `isScalarPart_scalarText`: numbers need no entities;
* `Nesting`, `Json.nesting`, `Element.nesting`: what is read back of a value, and from an element;
* `Json.IsLegible`: what can be read back;
* `isWrittenFor_writeAt`: the element that a value is written as;
* `isLegible_of_nesting`: nothing else is read from an element;
* `read_write_iff`: the values whose written form is read back.
-/

import PromptMarkup.Output.Xml
import PromptMarkup.Proofs.Output.ElementReading

namespace PromptMarkup

/-! ### Numbers -/

namespace Decimal

/-- A character of a number. -/
def isNumeralPart (char : Char) : Bool := char.isDigit || ['.', '-', '+', 'e'].contains char

theorem isNumeralPart_digitChars (number : Nat) :
    ∀ char ∈ digitChars number, isNumeralPart char := by
  intro char member
  have digit : char.isDigit := Nat.isDigit_of_mem_toDigits (by decide) (by decide) member
  simp [isNumeralPart, digit]

theorem isNumeralPart_positionalChars (whole : Bool) (numeral : Numeral) :
    ∀ char ∈ positionalChars whole numeral, isNumeralPart char := by
  have digits := isNumeralPart_digitChars numeral.digits
  have zeros : ∀ count, ∀ char ∈ List.replicate count '0', isNumeralPart char := by
    intro count char member
    obtain rfl := List.eq_of_mem_replicate member
    rfl
  unfold positionalChars
  simp only
  split
  · refine List.forall_mem_append.mpr ⟨List.forall_mem_append.mpr ⟨digits, zeros _⟩, ?_⟩
    split
    · exact List.all_eq_true.mp rfl
    · exact List.forall_mem_nil _
  · have padded := List.forall_mem_append.mpr ⟨zeros ((-numeral.exponent).toNat + 1 -
      (digitChars numeral.digits).length), digits⟩
    refine List.forall_mem_append.mpr ⟨fun char member => ?_, List.forall_mem_cons.mpr ⟨rfl, ?_⟩⟩
    · exact padded char (List.mem_of_mem_take member)
    · exact fun char member => padded char (List.mem_of_mem_drop member)

theorem isNumeralPart_exponentialChars (plus : Bool) (numeral : Numeral) :
    ∀ char ∈ exponentialChars plus numeral, isNumeralPart char := by
  have digits := isNumeralPart_digitChars numeral.digits
  unfold exponentialChars
  simp only
  refine List.forall_mem_append.mpr ⟨List.forall_mem_append.mpr ⟨List.forall_mem_append.mpr
    ⟨fun char member => ?_, ?_⟩, List.forall_mem_cons.mpr ⟨rfl, ?_⟩⟩, isNumeralPart_digitChars _⟩
  · exact digits char (List.mem_of_mem_take member)
  · split
    · exact List.forall_mem_nil _
    · refine List.forall_mem_cons.mpr ⟨rfl, fun char member => ?_⟩
      exact digits char (List.mem_of_mem_drop member)
  · split
    · exact List.all_eq_true.mp rfl
    · split <;> exact List.all_eq_true.mp rfl

/-- **Numbers are written with digits, points, signs and exponents.** -/
theorem isNumeralPart_write (style : NumberStyle) (number : Float) :
    ∀ char ∈ (style.write number).toList, isNumeralPart char := by
  unfold NumberStyle.write
  simp only
  rw [String.toList_ofList]
  have magnitude : ∀ chars : List Char, (∀ char ∈ chars, isNumeralPart char) →
      ∀ char ∈ if isNegative number then '-' :: chars else chars, isNumeralPart char := by
    intro chars part
    split
    · exact List.forall_mem_cons.mpr ⟨rfl, part⟩
    · exact part
  refine magnitude _ ?_
  split
  · exact isNumeralPart_positionalChars _ _
  · split
    · exact isNumeralPart_positionalChars _ _
    · exact isNumeralPart_exponentialChars _ _

end Decimal

/-! ### What is read back -/

/-- What is read back of a value: its text, or its parts by name in order. -/
inductive Nesting where
  | nothing
  | text (value : String)
  | parts (parts : List (String × Nesting))

namespace Json

mutual

/-- What there is to be read back of a value. The items of an array go by the name `item`. -/
def nesting : Json → Nesting
  | .object fields => .parts (fieldParts fields)
  | .array items => .parts (itemParts items)
  | .null => .nothing
  | .string text => .text text
  | scalar => .text scalar.scalarText

/-- Some items as parts. -/
def itemParts : List Json → List (String × Nesting)
  | [] => []
  | item :: rest => ("item", nesting item) :: itemParts rest

/-- Some fields as parts. -/
def fieldParts : List (String × Json) → List (String × Nesting)
  | [] => []
  | (key, value) :: rest => (key, nesting value) :: fieldParts rest

end

end Json

namespace Xml

mutual

/-- What is read from an element behind a margin. An element around elements has parts, an empty tag
has nothing, and any other element has its characters as a text, unless these are the line break and
the margin that stand between the tags where there are no parts. -/
def Element.nesting (margin : String) : Element → Nesting
  | ⟨_, _, none, _⟩ => .nothing
  | ⟨_, _, some data, []⟩ => if data = "\n" ++ margin then .parts [] else .text data
  | ⟨_, _, some _, first :: rest⟩ => .parts (partsAt (margin ++ "  ") (first :: rest))

/-- Some elements behind a margin as parts. -/
def partsAt (margin : String) : List Element → List (String × Nesting)
  | [] => []
  | element :: rest => (element.name.text, element.nesting margin) :: partsAt margin rest

end

end Xml

namespace Json

mutual

/-- A value can be read back from behind a margin: its keys are names of tags, and no text in it is
what stands between the tags of an object without fields. -/
def IsLegible (margin : String) : Json → Prop
  | .object fields => AreLegibleFields (margin ++ "  ") fields
  | .array items => AreLegibleItems (margin ++ "  ") items
  | .string text => text ≠ "\n" ++ margin
  | _ => True

/-- Items can be read back. -/
def AreLegibleItems (margin : String) : List Json → Prop
  | [] => True
  | item :: rest => item.IsLegible margin ∧ AreLegibleItems margin rest

/-- Fields can be read back. -/
def AreLegibleFields (margin : String) : List (String × Json) → Prop
  | [] => True
  | (key, value) :: rest =>
    Xml.isTagName key ∧ value.IsLegible margin ∧ AreLegibleFields margin rest

end

end Json

namespace Xml

/-! ### Scalars -/

/-- A character of a number or a truth value. -/
def isScalarPart (char : Char) : Bool := char.isAlpha || Decimal.isNumeralPart char

/-- Numbers and truth values need no entities. -/
theorem isScalarPart_scalarText {value : Json} (plain : value.string? = none) :
    ∀ char ∈ value.scalarText.toList, isScalarPart char := by
  have numeral : ∀ chars : List Char, (∀ char ∈ chars, Decimal.isNumeralPart char) →
      ∀ char ∈ chars, isScalarPart char := fun chars part char member => by
    rw [isScalarPart, part char member, Bool.or_true]
  cases value with
  | string text => cases plain
  | null | array | object =>
    exact (List.all_eq_true.mp (by decide) : ∀ char ∈ "null".toList, isScalarPart char)
  | bool value => cases value <;> exact List.all_eq_true.mp (by decide)
  | float value => exact numeral _ (Decimal.isNumeralPart_write _ value)
  | integer value =>
    have digits : ∀ number : Nat,
        ∀ char ∈ (Nat.repr number).toList, Decimal.isNumeralPart char := by
      intro number
      rw [Nat.toList_repr]
      exact Decimal.isNumeralPart_digitChars number
    refine numeral _ ?_
    cases value with
    | ofNat number => exact digits number
    | negSucc number =>
      show ∀ char ∈ ("-" ++ Nat.repr (number + 1)).toList, Decimal.isNumeralPart char
      rw [String.toList_append]
      exact List.forall_mem_append.mpr ⟨List.forall_mem_singleton.mpr rfl, digits _⟩

/-! ### Written values -/

theorem areAttributes_nil : AreAttributes [] := ⟨List.forall_mem_nil _, List.nodup_nil⟩

/-- An element in a line is written for a value that goes by a name. -/
def IsWrittenFor (margin line name : String) (nesting : Nesting) : Prop :=
  ∃ chars element, IsLine margin line chars element ∧ element.name.text = name ∧
    element.nesting margin = nesting

section Elements

variable {margin text lines : String} {data : List Char} {elements : List Element}

/-- A text on one line, unless it is a line break and the margin. -/
theorem isWrittenFor_leaf (writes : Writes text.toList data [])
    (apart : String.ofList data ≠ "\n" ++ margin) (name : TagName) :
    IsWrittenFor margin (leaf margin name.text text) name.text (.text (String.ofList data)) := by
  refine ⟨_, _, ⟨?_, getLast?_tagged name [] _, writes.element areAttributes_nil name⟩, rfl,
    if_neg apart⟩
  simp [leaf, tagged, headChars]

/-- Numbers and truth values have no line breaks in them. -/
theorem isWrittenFor_scalar {value : Json} (plain : value.string? = none) (margin : String)
    (name : TagName) :
    IsWrittenFor margin (leaf margin name.text value.scalarText) name.text
      (.text value.scalarText) := by
  have part := isScalarPart_scalarText plain
  have writes : Writes value.scalarText.toList value.scalarText.toList [] :=
    .plain _ fun char member => isMark_eq_false (part char member) (by decide)
  have apart : String.ofList value.scalarText.toList ≠ "\n" ++ margin := by
    rw [String.ofList_toList]
    intro same
    have lineBreak : '\n' ∈ value.scalarText.toList := by simp [same]
    cases part _ lineBreak
  have written := isWrittenFor_leaf writes apart name
  rwa [String.ofList_toList] at written

/-- Lines between two tags are the parts of an element. -/
theorem isWrittenFor_branch (writes : Writes lines.toList data elements)
    (bare : elements = [] → data = []) (blank : Text.isBlankText margin) (name : TagName) :
    IsWrittenFor margin (Xml.element margin name.text lines) name.text
      (.parts (partsAt (margin ++ "  ") elements)) := by
  refine ⟨_, _, ⟨?_, getLast?_tagged name [] _, writes.around blank areAttributes_nil name⟩, rfl,
    ?_⟩
  · simp [element, tagged, headChars]
  · cases elements with
    | nil =>
      obtain rfl := bare rfl
      exact if_pos (by simp)
    | cons first rest => rfl

end Elements

/-- The name of the elements of items. -/
def itemName : TagName := ⟨"item", by decide⟩

mutual

/-- **A value is written as one element, from which the value is read back.** -/
theorem isWrittenFor_writeAt {margin : String} (blank : Text.isBlankText margin) (name : TagName)
    (value : Json) (legible : value.IsLegible margin) :
    IsWrittenFor margin (writeAt margin name.text value) name.text value.nesting := by
  match value with
  | .object fields =>
    obtain ⟨data, elements, writes, bare, parts⟩ :=
      exists_writeFields (isBlankText_indented blank) fields legible
    have written := isWrittenFor_branch writes bare blank name
    rwa [parts] at written
  | .array items =>
    obtain ⟨data, elements, writes, bare, parts⟩ :=
      exists_writeItems (isBlankText_indented blank) items legible
    have written := isWrittenFor_branch writes bare blank name
    rwa [parts] at written
  | .null =>
    refine ⟨_, _, ⟨?_, getLast?_single name [], .single areAttributes_nil name⟩, rfl, rfl⟩
    simp [writeAt, headChars]
  | .string text =>
    have writes : Writes (Text.escapeEntities text).toList text.toList [] := by
      rw [Text.escapeEntities, String.toList_ofList]
      exact .escaped text.toList
    have written := isWrittenFor_leaf writes (by rwa [String.ofList_toList]) name
    rwa [String.ofList_toList] at written
  | .bool value =>
    have plain : Json.string? (.bool value) = none := rfl
    exact isWrittenFor_scalar plain margin name
  | .integer value =>
    have plain : Json.string? (.integer value) = none := rfl
    exact isWrittenFor_scalar plain margin name
  | .float value =>
    have plain : Json.string? (.float value) = none := rfl
    exact isWrittenFor_scalar plain margin name

/-- Items are written as elements, from which the items are read back. -/
theorem exists_writeItems {margin : String} (blank : Text.isBlankText margin) (items : List Json)
    (legible : Json.AreLegibleItems margin items) :
    ∃ data elements, Writes (writeItems margin items).toList data elements ∧
      (elements = [] → data = []) ∧ partsAt margin elements = Json.itemParts items := by
  match items with
  | [] => exact ⟨[], [], .nil, fun _ => rfl, rfl⟩
  | item :: rest =>
    obtain ⟨chars, element, line, named, read⟩ := isWrittenFor_writeAt blank itemName item legible.1
    obtain ⟨data, elements, behind, _, parts⟩ := exists_writeItems blank rest legible.2
    refine ⟨_, _, line.followed blank behind, (nomatch ·), ?_⟩
    rw [partsAt, named, read, parts]
    rfl

/-- Fields are written as elements, from which the fields are read back. -/
theorem exists_writeFields {margin : String} (blank : Text.isBlankText margin)
    (fields : List (String × Json)) (legible : Json.AreLegibleFields margin fields) :
    ∃ data elements, Writes (writeFields margin fields).toList data elements ∧
      (elements = [] → data = []) ∧ partsAt margin elements = Json.fieldParts fields := by
  match fields with
  | [] => exact ⟨[], [], .nil, fun _ => rfl, rfl⟩
  | (key, value) :: rest =>
    obtain ⟨proper, here, later⟩ := legible
    obtain ⟨chars, element, line, named, read⟩ := isWrittenFor_writeAt blank ⟨key, proper⟩ value here
    obtain ⟨data, elements, behind, _, parts⟩ := exists_writeFields blank rest later
    refine ⟨_, _, line.followed blank behind, (nomatch ·), ?_⟩
    rw [partsAt, named, read, parts]
    rfl

end

/-! ### Values that are not read back -/

section Reading

variable {margin : String} {element : Element}

/-- The parts that are read from an element are read from the elements in it. -/
theorem Element.partsAt_children {parts : List (String × Nesting)}
    (same : element.nesting margin = .parts parts) :
    partsAt (margin ++ "  ") element.children = parts := by
  unfold Element.nesting at same
  split at same
  next => cases same
  next =>
    split at same
    · exact Nesting.parts.inj same
    · cases same
  next => exact Nesting.parts.inj same

/-- No line break with the margin is read as a text. -/
theorem Element.ne_of_nesting {text : String} (same : element.nesting margin = .text text) :
    text ≠ "\n" ++ margin := by
  unfold Element.nesting at same
  split at same
  next => cases same
  next =>
    split at same
    next => cases same
    next other => exact Nesting.text.inj same ▸ other
  next => cases same

end Reading

mutual

/-- **Only what is legible is read from an element.** -/
theorem isLegible_of_nesting {margin : String} {element : Element} (value : Json)
    (same : element.nesting margin = value.nesting) : value.IsLegible margin := by
  match value with
  | .object fields => exact areLegible_of_fieldParts fields (Element.partsAt_children same)
  | .array items => exact areLegible_of_itemParts items (Element.partsAt_children same)
  | .string text => exact Element.ne_of_nesting same
  | .null | .bool _ | .integer _ | .float _ => exact trivial

theorem areLegible_of_itemParts {margin : String} {elements : List Element} (items : List Json)
    (same : partsAt margin elements = Json.itemParts items) :
    Json.AreLegibleItems margin items := by
  match items, elements with
  | [], _ => exact trivial
  | item :: rest, first :: others =>
    obtain ⟨head, tail⟩ := List.cons.inj same
    exact ⟨isLegible_of_nesting item (Prod.mk.inj head).2, areLegible_of_itemParts rest tail⟩

theorem areLegible_of_fieldParts {margin : String} {elements : List Element}
    (fields : List (String × Json)) (same : partsAt margin elements = Json.fieldParts fields) :
    Json.AreLegibleFields margin fields := by
  match fields, elements with
  | [], _ => exact trivial
  | (key, value) :: rest, first :: others =>
    obtain ⟨head, tail⟩ := List.cons.inj same
    obtain ⟨named, read⟩ := Prod.mk.inj head
    exact ⟨named ▸ first.name.isName, isLegible_of_nesting value read,
      areLegible_of_fieldParts rest tail⟩

end

/-! ### Whole values -/

/-- The written form of a value is the line of its root without the line break. -/
theorem IsLine.write {value : Json} {chars : List Char} {element : Element}
    (line : IsLine "" (writeAt "" "data" value) chars element) : (write value).toList = chars := by
  obtain ⟨front, rfl⟩ := List.getLast?_eq_some_iff.mp line.last
  rw [Xml.write, String.toList_ofList, line.toList]
  simp [Text.trimEnd, Text.trimEndBy, show Text.isBlank '\n' from rfl,
    show Text.isBlank '>' = false from rfl]

/-- **A value is read back from its written form**, one root named `data`, exactly when it is
legible. -/
theorem read_write_iff (value : Json) :
    (∃ root, read? (write value) = some root ∧ root.name.text = "data" ∧
      root.nesting "" = value.nesting) ↔ value.IsLegible "" := by
  constructor
  · rintro ⟨root, _, _, same⟩
    exact isLegible_of_nesting value same
  · intro legible
    have empty : Text.isBlankText "" := rfl
    obtain ⟨chars, root, line, named, same⟩ :=
      isWrittenFor_writeAt empty ⟨"data", by decide⟩ value legible
    have writes := line.writes
    rw [← line.write] at writes
    exact ⟨root, writes.read? rfl, named, same⟩

/-- A text that is like the space between two tags cannot be told from an object without fields. -/
example : write (.string "\n") = write (.object []) := by decide +kernel

/-- A key with a blank in it is no name of a tag, and what is written is not balanced. -/
theorem not_read_write_blankKey :
    write (.object [("a b", .integer 1)]) = "<data>\n  <a b>1</a b>\n</data>" ∧
      isTagName "a b" = false ∧ read? (write (.object [("a b", .integer 1)])) = none := by
  decide +kernel

end Xml

end PromptMarkup
