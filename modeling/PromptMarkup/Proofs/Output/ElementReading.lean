/-
**Reading elements.**

A text of elements is read as tags and characters, and these are put together into a tree. Tags have
to be balanced under one root, and a tag does not have two attributes of one name. Text and the
values of attributes have to be escaped: characters with a meaning in markup are refused there, and
so are ampersands that begin no entity.

* `TagName`, `Element`: a name that a tag can have; an element with its attributes, the characters
  directly in it and the elements in it;
* `Token.chars`, `readToken?`, `readToken?_chars`: the written form of a tag or a character, and the
  first one of a text;
* `build?`, `read?`: what tags and characters make up, and the element that a text is;
* `Writes`: a text consists of tags and characters that make up some characters and some elements,
  with `Writes.append`, `Writes.escaped`, `Writes.single` and `Writes.element` for how it is put
  together;
* `Writes.read?`: a text is read as the one element that it writes between blanks;
* `IsLine`: one element between a margin and a line break.
-/

import PromptMarkup.Text.Blank
import PromptMarkup.Text.Cut
import PromptMarkup.Text.Entities

namespace PromptMarkup.Xml

open Text (entityChar)

/-! ### Elements -/

/-- A character of a name: no white space, and none that ends a name, a tag or a value. -/
def isNamePart (char : Char) : Bool :=
  !Text.isBlank char && !(['<', '>', '/', '&', '"', '\''].contains char)

/-- A text that a tag can have as its name. -/
def isTagName (text : String) : Bool := !text.toList.isEmpty && text.toList.all isNamePart

/-- A character of the name of an attribute. -/
def isAttributePart (char : Char) : Bool := isNamePart char && char ≠ '='

/-- A text that an attribute can have as its name. -/
def isAttributeName (text : String) : Bool :=
  !text.toList.isEmpty && text.toList.all isAttributePart

/-- A name that a tag can have. -/
structure TagName where
  text : String
  isName : isTagName text
  deriving DecidableEq

/-- The name of a tag that some characters spell. -/
def TagName.ofChars? (chars : List Char) : Option TagName :=
  if proper : isTagName (String.ofList chars) then some ⟨_, proper⟩ else none

/-- An element. -/
structure Element where
  name : TagName
  attributes : List (String × String)
  /-- The characters between its two tags that are in no other element; none if it has one tag that
  closes itself. -/
  data : Option String
  children : List Element

/-! ### Reading in a row -/

/-- Items one behind the other up to where the reading stops, and what is left there. Every item
takes at least one character. -/
def readAll? {α : Type} (item : List Char → Option (α × List Char)) (stops : List Char → Bool)
    (chars : List Char) : Option (List α × List Char) :=
  if stops chars then some ([], chars)
  else
    match item chars with
    | some (first, rest) =>
      if rest.length < chars.length then
        (readAll? item stops rest).map fun (others, left) => (first :: others, left)
      else none
    | none => none
termination_by chars.length

section Rows

variable {α : Type} {item : List Char → Option (α × List Char)} {stops : List Char → Bool}

theorem readAll?_of_stops {chars : List Char} (here : stops chars) :
    readAll? item stops chars = some ([], chars) := by
  rw [readAll?, if_pos here]

theorem readAll?_append {text rest : List Char} {first : α} (nonempty : text ≠ [])
    (more : stops (text ++ rest) = false) (reads : item (text ++ rest) = some (first, rest)) :
    readAll? item stops (text ++ rest) =
      (readAll? item stops rest).map fun (others, left) => (first :: others, left) := by
  have shorter : rest.length < (text ++ rest).length := by
    have := List.length_pos_iff.mpr nonempty
    rw [List.length_append]
    omega
  rw [readAll?, if_neg (by simp [more]), reads]
  exact if_pos shorter

/-- **Items that are written one behind the other are read up to where the reading stops.** -/
theorem readAll?_flatMap {write : α → List Char} {items : List α} {rest : List Char}
    (nonempty : ∀ value ∈ items, write value ≠ [])
    (more : ∀ value ∈ items, ∀ behind, stops (write value ++ behind) = false)
    (reads : ∀ value ∈ items, ∀ behind, item (write value ++ behind) = some (value, behind))
    (ends : stops rest) :
    readAll? item stops (items.flatMap write ++ rest) = some (items, rest) := by
  induction items with
  | nil => exact readAll?_of_stops ends
  | cons first others ih =>
    simp only [List.forall_mem_cons] at nonempty more reads
    rw [List.flatMap_cons, List.append_assoc,
      readAll?_append nonempty.1 (more.1 _) (reads.1 _), ih nonempty.2 more.2 reads.2]
    rfl

end Rows

/-! ### Escaped text -/

/-- A character that has a meaning in markup. -/
def isMark (char : Char) : Bool := ['&', '<', '>', '"'].contains char

/-- The first character of an escaped text, and what is behind it. -/
def readChar? : List Char → Option (Char × List Char)
  | '&' :: 'a' :: 'm' :: 'p' :: ';' :: rest => some ('&', rest)
  | '&' :: 'l' :: 't' :: ';' :: rest => some ('<', rest)
  | '&' :: 'g' :: 't' :: ';' :: rest => some ('>', rest)
  | '&' :: 'q' :: 'u' :: 'o' :: 't' :: ';' :: rest => some ('"', rest)
  | char :: rest => if isMark char then none else some (char, rest)
  | [] => none

theorem eq_of_isMark {char : Char} (mark : isMark char) :
    char = '&' ∨ char = '<' ∨ char = '>' ∨ char = '"' := by
  simpa [isMark] using mark

/-- A kind of characters without marks. -/
theorem isMark_eq_false {keep : Char → Bool} {char : Char} (kept : keep char)
    (outside : ['&', '<', '>', '"'].any keep = false) : isMark char = false := by
  cases mark : isMark char with
  | false => rfl
  | true =>
    have inside : ['&', '<', '>', '"'].any keep :=
      List.any_eq_true.mpr ⟨char, by simpa using eq_of_isMark mark, kept⟩
    rw [outside] at inside
    cases inside

theorem entityChar_of_not_isMark {char : Char} (plain : isMark char = false) :
    entityChar char = [char] := by
  unfold entityChar
  split <;> first | rfl | exact absurd plain (by decide)

/-- **An escaped character is read back.** -/
theorem readChar?_entityChar (char : Char) (rest : List Char) :
    readChar? (entityChar char ++ rest) = some (char, rest) := by
  cases mark : isMark char with
  | true => rcases eq_of_isMark mark with rfl | rfl | rfl | rfl <;> rfl
  | false =>
    rw [entityChar_of_not_isMark mark, List.singleton_append]
    have other : char ≠ '&' := by
      rintro rfl
      cases mark
    rw [readChar?, if_neg (by simp [mark])]
    all_goals simp [other]

/-- An escaped character does not begin with a bracket or a quote. -/
theorem head?_entityChar (char : Char) (rest : List Char) :
    (entityChar char ++ rest).head? ≠ some '<' ∧ (entityChar char ++ rest).head? ≠ some '"' := by
  cases mark : isMark char with
  | true => rcases eq_of_isMark mark with rfl | rfl | rfl | rfl <;> simp [entityChar]
  | false =>
    rw [entityChar_of_not_isMark mark]
    constructor <;>
    · rw [List.singleton_append, List.head?_cons]
      rintro ⟨⟩
      cases mark

theorem entityChar_ne_nil (char : Char) : entityChar char ≠ [] := by
  unfold entityChar
  split <;> exact List.cons_ne_nil _ _

/-! ### Tags and characters -/

/-- A tag, or a character between tags. -/
inductive Token where
  | opening (name : TagName) (attributes : List (String × String))
  | closing (name : TagName)
  | single (name : TagName) (attributes : List (String × String))
  | char (char : Char)

/-- The written form of an attribute, with its value escaped. -/
def attributeChars (pair : String × String) : List Char :=
  ' ' :: pair.1.toList ++ '=' :: '"' :: pair.2.toList.flatMap entityChar ++ ['"']

/-- A name and attributes behind the bracket of a tag. -/
def headChars (name : TagName) (attributes : List (String × String)) : List Char :=
  name.text.toList ++ attributes.flatMap attributeChars

/-- The written form of a tag, and that of a character, which is escaped. -/
def Token.chars : Token → List Char
  | opening name attributes => '<' :: headChars name attributes ++ ['>']
  | closing name => '<' :: '/' :: name.text.toList ++ ['>']
  | single name attributes => '<' :: headChars name attributes ++ ['/', '>']
  | char value => entityChar value

/-- Attributes that a tag can have: their names are apart. -/
def AreAttributes (attributes : List (String × String)) : Prop :=
  (∀ pair ∈ attributes, isAttributeName pair.1) ∧ (attributes.map Prod.fst).Nodup

/-- A tag that can be written. -/
def Token.IsProper : Token → Prop
  | opening _ attributes => AreAttributes attributes
  | single _ attributes => AreAttributes attributes
  | _ => True

/-! ### Reading tags -/

/-- The value of an attribute ends here. -/
def endsValue (chars : List Char) : Bool := chars.head? = some '"'

/-- No attribute begins here. -/
def endsAttributes (chars : List Char) : Bool := chars.head? ≠ some ' '

/-- An attribute behind a blank, and what is behind it. -/
def readAttribute? (chars : List Char) : Option ((String × String) × List Char) := do
  let rest ← Text.dropPrefix? [' '] chars
  let (name, rest) := Text.cutWhile isAttributePart rest
  let rest ← Text.dropPrefix? ['=', '"'] rest
  let (value, rest) ← readAll? readChar? endsValue rest
  if isAttributeName (String.ofList name) then
    return ((String.ofList name, String.ofList value), rest.drop 1)
  else none

/-- A close tag behind its slash, and what is behind it. -/
def readClosing? (chars : List Char) : Option (Token × List Char) := do
  let (name, rest) := Text.cutWhile isNamePart chars
  let rest ← Text.dropPrefix? ['>'] rest
  return (.closing (← TagName.ofChars? name), rest)

/-- Any other tag behind its bracket, and what is behind it. -/
def readOpening? (chars : List Char) : Option (Token × List Char) := do
  let (name, rest) := Text.cutWhile isNamePart chars
  let name ← TagName.ofChars? name
  let (attributes, rest) ← readAll? readAttribute? endsAttributes rest
  if (attributes.map Prod.fst).Nodup then
    match rest with
    | '>' :: rest => return (.opening name attributes, rest)
    | '/' :: '>' :: rest => return (.single name attributes, rest)
    | _ => none
  else none

/-- The first tag or character of a text, and what is behind it. -/
def readToken? : List Char → Option (Token × List Char)
  | '<' :: '/' :: rest => readClosing? rest
  | '<' :: rest => readOpening? rest
  | chars => (readChar? chars).map fun (char, rest) => (.char char, rest)

theorem TagName.ofChars?_toList (name : TagName) : ofChars? name.text.toList = some name := by
  unfold ofChars?
  split
  · congr 1
    cases name
    simp
  next other => exact absurd (by rw [String.ofList_toList]; exact name.isName) other

theorem TagName.isNamePart_of_mem (name : TagName) :
    ∀ char ∈ name.text.toList, isNamePart char = true := by
  have proper := name.isName
  rw [isTagName, Bool.and_eq_true, List.all_eq_true] at proper
  exact proper.2

theorem readAttribute?_attributeChars {pair : String × String}
    (proper : isAttributeName pair.1) (rest : List Char) :
    readAttribute? (attributeChars pair ++ rest) = some (pair, rest) := by
  obtain ⟨name, value⟩ := pair
  have parts := proper
  simp only [isAttributeName, Bool.and_eq_true, List.all_eq_true] at parts
  have cut : Text.cutWhile isAttributePart
      (name.toList ++ '=' :: '"' :: (value.toList.flatMap entityChar ++ '"' :: rest)) =
        (name.toList, '=' :: '"' :: (value.toList.flatMap entityChar ++ '"' :: rest)) :=
    Text.cutWhile_of_all name.toList parts.2 (by rintro _ ⟨⟩; rfl)
  have read : readAll? readChar? endsValue
      (value.toList.flatMap entityChar ++ '"' :: rest) = some (value.toList, '"' :: rest) :=
    readAll?_flatMap (fun char _ => entityChar_ne_nil char)
      (fun char _ behind => decide_eq_false (head?_entityChar char behind).2)
      (fun char _ behind => readChar?_entityChar char behind) rfl
  simp [readAttribute?, attributeChars, Text.dropPrefix?, cut, read, proper]

/-- **The name and the attributes of a tag are read back** up to the mark at its end. -/
theorem readOpening?_headChars {attributes : List (String × String)}
    (proper : AreAttributes attributes) (name : TagName) (rest : List Char) :
    readOpening? (headChars name attributes ++ '>' :: rest) =
        some (.opening name attributes, rest) ∧
      readOpening? (headChars name attributes ++ '/' :: '>' :: rest) =
        some (.single name attributes, rest) := by
  have behind : ∀ mark, mark = '>' ∨ mark = '/' → ∀ rest,
      Text.cutWhile isNamePart (headChars name attributes ++ mark :: rest) =
          (name.text.toList, attributes.flatMap attributeChars ++ mark :: rest) ∧
        readAll? readAttribute? endsAttributes (attributes.flatMap attributeChars ++ mark :: rest) =
          some (attributes, mark :: rest) := by
    intro mark ends rest
    constructor
    · rw [headChars, List.append_assoc]
      refine Text.cutWhile_of_all _ name.isNamePart_of_mem fun char first => ?_
      cases attributes with
      | nil =>
        obtain rfl : mark = char := Option.some.inj first
        rcases ends with rfl | rfl <;> decide
      | cons pair others =>
        obtain rfl : ' ' = char := Option.some.inj first
        decide
    · refine readAll?_flatMap (fun _ _ => List.cons_ne_nil _ _) (fun _ _ _ => ?_)
        (fun pair member => readAttribute?_attributeChars (proper.1 pair member)) ?_
      · rfl
      · rcases ends with rfl | rfl <;> rfl
  constructor
  · obtain ⟨cut, read⟩ := behind '>' (.inl rfl) rest
    simp [readOpening?, cut, read, TagName.ofChars?_toList, proper.2]
  · obtain ⟨cut, read⟩ := behind '/' (.inr rfl) ('>' :: rest)
    simp [readOpening?, cut, read, TagName.ofChars?_toList, proper.2]

/-- A tag that begins with a name is no close tag. -/
theorem readToken?_headChars (name : TagName) (attributes : List (String × String))
    (rest : List Char) :
    readToken? ('<' :: (headChars name attributes ++ rest)) =
      readOpening? (headChars name attributes ++ rest) := by
  rw [readToken?]
  intro behind same
  have proper := name.isName
  rw [isTagName, Bool.and_eq_true] at proper
  obtain ⟨first, others, spelled⟩ := List.exists_cons_of_ne_nil (l := name.text.toList)
    fun empty => by simp [empty] at proper
  have part := name.isNamePart_of_mem first (spelled ▸ List.mem_cons_self)
  rw [headChars, spelled, List.cons_append, List.cons_append] at same
  obtain ⟨rfl, _⟩ := List.cons.inj same
  cases part

theorem readClosing?_name (name : TagName) (rest : List Char) :
    readClosing? (name.text.toList ++ '>' :: rest) = some (.closing name, rest) := by
  have cut : Text.cutWhile isNamePart (name.text.toList ++ '>' :: rest) =
      (name.text.toList, '>' :: rest) :=
    Text.cutWhile_of_all _ name.isNamePart_of_mem (by rintro _ ⟨⟩; rfl)
  simp [readClosing?, cut, Text.dropPrefix?, TagName.ofChars?_toList]

/-- **The first tag or character of a text is read back.** -/
theorem readToken?_chars {token : Token} (proper : token.IsProper) (rest : List Char) :
    readToken? (token.chars ++ rest) = some (token, rest) := by
  cases token with
  | opening name attributes =>
    rw [Token.chars, List.append_assoc, List.cons_append, readToken?_headChars]
    exact (readOpening?_headChars proper name rest).1
  | single name attributes =>
    rw [Token.chars, List.append_assoc, List.cons_append, readToken?_headChars]
    exact (readOpening?_headChars proper name rest).2
  | closing name =>
    rw [Token.chars, List.append_assoc]
    exact readClosing?_name name rest
  | char char =>
    have outside := (head?_entityChar char rest).1
    rw [Token.chars, readToken?, readChar?_entityChar, Option.map_some]
    all_goals
      intro _ same
      rw [same] at outside
      exact absurd rfl outside

theorem Token.chars_ne_nil (token : Token) : token.chars ≠ [] := by
  cases token with
  | opening | closing | single => exact List.cons_ne_nil _ _
  | char char => exact entityChar_ne_nil char

/-! ### Trees -/

/-- Characters and elements, the last ones first. -/
structure Contents where
  data : List Char
  elements : List Element

/-- An element that is open, with the contents of what is around it. -/
structure Frame where
  name : TagName
  attributes : List (String × String)
  around : Contents

/-- The contents with one more element. -/
def Contents.push (contents : Contents) (element : Element) : Contents :=
  ⟨contents.data, element :: contents.elements⟩

/-- The element of a frame with all of its contents. -/
def Frame.element (frame : Frame) (contents : Contents) : Element :=
  ⟨frame.name, frame.attributes, some (String.ofList contents.data.reverse),
    contents.elements.reverse⟩

/-- What tags and characters make up behind some contents inside of some elements. Every tag has to
be closed by one of its name, the innermost one first. -/
def build? (contents : Contents) : List Frame → List Token → Option Contents
  | [], [] => some contents
  | _ :: _, [] => none
  | frames, .char char :: rest => build? ⟨char :: contents.data, contents.elements⟩ frames rest
  | frames, .single name attributes :: rest =>
    build? (contents.push ⟨name, attributes, none, []⟩) frames rest
  | frames, .opening name attributes :: rest =>
    build? ⟨[], []⟩ (⟨name, attributes, contents⟩ :: frames) rest
  | frame :: frames, .closing name :: rest =>
    if frame.name = name then build? (frame.around.push (frame.element contents)) frames rest
    else none
  | [], .closing _ :: _ => none

/-- The element that a text is, with blanks around it. -/
def read? (text : String) : Option Element := do
  let (tokens, _) ← readAll? readToken? List.isEmpty text.toList
  let contents ← build? ⟨[], []⟩ [] tokens
  match contents.elements with
  | [root] => if contents.data.all Text.isBlank then return root else none
  | _ => none

/-- Tags and characters make up some characters and some elements, wherever they stand. -/
def Fills (tokens : List Token) (data : List Char) (elements : List Element) : Prop :=
  ∀ contents frames rest, build? contents frames (tokens ++ rest) =
    build? ⟨data.reverse ++ contents.data, elements.reverse ++ contents.elements⟩ frames rest

section Filling

variable {tokens others : List Token} {data characters : List Char} {elements more : List Element}

theorem Fills.nil : Fills [] [] [] := fun _ _ _ => rfl

theorem Fills.append (first : Fills tokens data elements) (second : Fills others characters more) :
    Fills (tokens ++ others) (data ++ characters) (elements ++ more) := by
  intro contents frames rest
  rw [List.append_assoc, first, second, List.reverse_append, List.reverse_append,
    List.append_assoc, List.append_assoc]

theorem Fills.chars (chars : List Char) : Fills (chars.map .char) chars [] := by
  induction chars with
  | nil => exact .nil
  | cons char rest ih =>
    have first : Fills [.char char] [char] [] := fun _ _ _ => by simp [build?]
    exact first.append ih

theorem Fills.single (name : TagName) (attributes : List (String × String)) :
    Fills [.single name attributes] [] [⟨name, attributes, none, []⟩] := fun _ _ _ => by
  simp [build?, Contents.push]

/-- **An element is what stands between its tags.** -/
theorem Fills.element (inside : Fills tokens data elements) (name : TagName)
    (attributes : List (String × String)) :
    Fills (.opening name attributes :: tokens ++ [.closing name]) []
      [⟨name, attributes, some (String.ofList data), elements⟩] := fun contents frames rest => by
  rw [List.cons_append, List.cons_append, List.append_assoc, build?, inside]
  simp [build?, Contents.push, Frame.element]

end Filling

/-! ### Written elements -/

/-- A text consists of tags and escaped characters, and these make up some characters and some
elements. -/
structure Spelling (text data : List Char) (elements : List Element) (tokens : List Token) :
    Prop where
  proper : ∀ token ∈ tokens, token.IsProper
  text : text = tokens.flatMap Token.chars
  fills : Fills tokens data elements

/-- A text is the written form of some characters and some elements. -/
def Writes (text data : List Char) (elements : List Element) : Prop :=
  ∃ tokens, Spelling text data elements tokens

section Writing

variable {text more data characters : List Char} {elements others : List Element}
  {attributes : List (String × String)}

theorem Writes.nil : Writes [] [] [] := ⟨[], List.forall_mem_nil _, rfl, .nil⟩

theorem Writes.append (first : Writes text data elements) (second : Writes more characters others) :
    Writes (text ++ more) (data ++ characters) (elements ++ others) := by
  obtain ⟨tokens, proper, rfl, fills⟩ := first
  obtain ⟨behind, well, rfl, fill⟩ := second
  exact ⟨tokens ++ behind, List.forall_mem_append.mpr ⟨proper, well⟩, List.flatMap_append.symm,
    fills.append fill⟩

/-- An escaped text is the written form of its characters. -/
theorem Writes.escaped (chars : List Char) : Writes (chars.flatMap entityChar) chars [] :=
  ⟨chars.map .char, List.forall_mem_map.mpr fun _ _ => trivial,
    by rw [List.flatMap_map]; rfl, .chars chars⟩

/-- A text without marks is its own written form. -/
theorem Writes.plain (chars : List Char) (plain : ∀ char ∈ chars, isMark char = false) :
    Writes chars chars [] := by
  have same : chars.flatMap entityChar = chars := by
    induction chars with
    | nil => rfl
    | cons char rest ih =>
      obtain ⟨first, others⟩ := List.forall_mem_cons.mp plain
      rw [List.flatMap_cons, entityChar_of_not_isMark first, ih others]
      rfl
  have written := Writes.escaped chars
  rwa [same] at written

theorem Writes.single (proper : AreAttributes attributes) (name : TagName) :
    Writes ('<' :: headChars name attributes ++ ['/', '>']) []
      [⟨name, attributes, none, []⟩] :=
  ⟨[.single name attributes], List.forall_mem_singleton.mpr proper,
    (List.flatMap_singleton _ _).symm, .single name attributes⟩

/-- Characters between the tags of an element. -/
def tagged (name : TagName) (attributes : List (String × String)) (chars : List Char) :
    List Char :=
  '<' :: headChars name attributes ++ ['>'] ++ chars ++ ('<' :: '/' :: name.text.toList ++ ['>'])

/-- **What stands between two tags makes up the contents of their element.** -/
theorem Writes.element (inside : Writes text data elements) (proper : AreAttributes attributes)
    (name : TagName) :
    Writes (tagged name attributes text) []
      [⟨name, attributes, some (String.ofList data), elements⟩] := by
  obtain ⟨tokens, well, rfl, fills⟩ := inside
  refine ⟨_, ?_, ?_, fills.element name attributes⟩
  · exact List.forall_mem_append.mpr ⟨List.forall_mem_cons.mpr ⟨proper, well⟩,
      List.forall_mem_singleton.mpr trivial⟩
  · simp [tagged, Token.chars]

/-- **A text is read as the one element that it writes between blanks.** -/
theorem Writes.read? {text : String} {element : Element}
    (writes : Writes text.toList data [element]) (blank : data.all Text.isBlank) :
    Xml.read? text = some element := by
  obtain ⟨tokens, proper, spelled, fills⟩ := writes
  have read : readAll? readToken? List.isEmpty text.toList = some (tokens, []) := by
    rw [spelled, ← List.append_nil (tokens.flatMap Token.chars)]
    exact readAll?_flatMap (fun token _ => token.chars_ne_nil)
      (fun token _ behind => by simp [token.chars_ne_nil])
      (fun token member => readToken?_chars (proper token member)) rfl
  have built : build? ⟨[], []⟩ [] tokens = some ⟨data.reverse, [element]⟩ := by
    have filled := fills ⟨[], []⟩ [] []
    simpa [build?] using filled
  have around : data.reverse.all Text.isBlank := by rwa [List.all_reverse]
  unfold Xml.read?
  rw [read]
  simp only [Option.bind_eq_bind, Option.bind_some, built]
  exact if_pos around

end Writing

/-! ### Lines -/

/-- A text is the written form of one element between a margin and a line break. -/
structure IsLine (margin text : String) (chars : List Char) (element : Element) : Prop where
  toList : text.toList = margin.toList ++ chars ++ ['\n']
  last : chars.getLast? = some '>'
  writes : Writes chars [] [element]

section Lines

variable {margin text behind : String} {chars data : List Char} {element : Element}
  {elements : List Element} {attributes : List (String × String)}

theorem getLast?_tagged (name : TagName) (attributes : List (String × String))
    (chars : List Char) : (tagged name attributes chars).getLast? = some '>' := by
  rw [tagged, ← List.append_assoc, List.getLast?_concat]

theorem getLast?_single (name : TagName) (attributes : List (String × String)) :
    ('<' :: headChars name attributes ++ ['/', '>']).getLast? = some '>' := by
  rw [show ['/', '>'] = ['/'] ++ ['>'] from rfl, ← List.append_assoc, List.getLast?_concat]

theorem writes_blank (blank : Text.isBlankText margin) :
    Writes margin.toList margin.toList [] :=
  .plain _ fun char member =>
    isMark_eq_false (List.all_eq_true.mp blank char member) (by decide)

theorem writes_lineBreak : Writes ['\n'] ['\n'] [] :=
  .plain _ (List.forall_mem_singleton.mpr rfl)

theorem isBlankText_indented (blank : Text.isBlankText margin) :
    Text.isBlankText (margin ++ "  ") := by
  simp only [Text.isBlankText, String.toList_append, List.all_append, Bool.and_eq_true] at blank ⊢
  exact ⟨blank, by decide⟩

/-- A line with others behind it. -/
theorem IsLine.followed (line : IsLine margin text chars element)
    (blank : Text.isBlankText margin) (others : Writes behind.toList data elements) :
    Writes (text ++ behind).toList (margin.toList ++ ['\n'] ++ data) (element :: elements) := by
  have whole := ((writes_blank blank).append line.writes).append writes_lineBreak
  rw [← line.toList] at whole
  have both := whole.append others
  rw [← String.toList_append] at both
  simpa using both

/-- Lines between two tags of a margin make up the children of their element. -/
theorem Writes.around (lines : Writes chars data elements) (blank : Text.isBlankText margin)
    (proper : AreAttributes attributes) (name : TagName) :
    Writes (tagged name attributes (['\n'] ++ chars ++ margin.toList)) []
      [⟨name, attributes, some (String.ofList (['\n'] ++ data ++ margin.toList)), elements⟩] := by
  have inside := (writes_lineBreak.append lines).append (writes_blank blank)
  rw [List.nil_append, List.append_nil] at inside
  exact inside.element proper name

end Lines

end PromptMarkup.Xml
