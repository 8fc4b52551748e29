/-
**A source with an element under another name.**

Where the name of an element is written in another way, in its open tag and in its close tag, the
lexer reads the same as before but for the two names.

* `replaceAt`, `Element.respelled`: a source with other text at a range, and with another name in the
  tags of an element;
* `TagAt.renamed_open`, `TagAt.renamed_close`, `LiteralAt.renamed`: an open tag, a close tag and a
  literal element with another name;
* `Element.Respells`, `respells_of_below`: the lexemes of a source with another name in the tags of
  an element.
-/

import PromptMarkup.Proofs.Markup.TagOrigins
import PromptMarkup.Proofs.Markup.TreeTiling

namespace PromptMarkup.Markup

open Text

variable {tags : LiteralTags} {source : String}

/-! ### Sources -/

/-- A source with other text at a range. -/
def replaceAt (source : String) (span : Span) (text : String) : String :=
  slice source ⟨0, span.start⟩ ++ text ++ slice source ⟨span.stop, source.utf8ByteSize⟩

/-- A source with another name in the tags of an element. The close tag comes first, because it moves
when the open tag changes. -/
def Element.respelled (element : Element) (source new : String) : String :=
  replaceAt (element.closing.elim source fun close => replaceAt source close.nameSpan new)
    element.opening.nameSpan new

theorem toList_replaceAt {before after : List Char} {span : Span} (text : List Char) (new : String)
    (whole : source.toList = before ++ (text ++ after))
    (place : span = ⟨byteLength before, byteLength before + byteLength text⟩) :
    (replaceAt source span new).toList = before ++ (new.toList ++ after) := by
  have front : (⟨0, span.start⟩ : Span).Reads source (String.ofList before) := by
    refine ⟨[], text ++ after, ?_, ?_⟩
    · rw [whole, String.toList_ofList]
      rfl
    · rw [place, String.toList_ofList, byteLength_nil, Nat.zero_add]
  have back : (⟨span.stop, source.utf8ByteSize⟩ : Span).Reads source (String.ofList after) := by
    refine ⟨before ++ text, [], ?_, ?_⟩
    · rw [whole, String.toList_ofList, List.append_nil, List.append_assoc]
    · rw [place, String.toList_ofList, ← byteLength_toList, whole]
      simp only [byteLength_append, Nat.add_assoc]
  unfold replaceAt slice
  rw [show String.Pos.Raw.extract source ⟨(⟨0, span.start⟩ : Span).start⟩
    ⟨(⟨0, span.start⟩ : Span).stop⟩ = _ from front.extract]
  rw [show String.Pos.Raw.extract source ⟨(⟨span.stop, source.utf8ByteSize⟩ : Span).start⟩
    ⟨(⟨span.stop, source.utf8ByteSize⟩ : Span).stop⟩ = _ from back.extract]
  simp

/-! ### The lexemes of another source -/

/-- What is read from the close tag of an element on, if it has one, and what is read there with
another name in the close tag. -/
inductive ClosingLexemes (new : List Char) (start : Nat) :
    Option CloseTag → List Lexeme → List Lexeme → Prop
  | none (rest : List Lexeme) : ClosingLexemes new start none rest rest
  | some {close : CloseTag} (rest : List Lexeme) :
      close.nameSpan = ⟨start + 2, start + 2 + byteLength close.name.toList⟩ →
      ClosingLexemes new start (some close)
        ((.closingOpenBracket, tagMark .closingOpenBracket) ::
          (.identifier, close.name.toList) :: rest)
        ((.closingOpenBracket, tagMark .closingOpenBracket) :: (.identifier, new) :: rest)

/-- The lexer reads a source and another one in the same way, but for the names in the tags of an
element. -/
def Element.Respells (element : Element) (tags : LiteralTags) (source other new : String) : Prop :=
  ∃ front middle tail last,
    lexemes tags .markup source.toList = front ++ (.openBracket, tagMark .openBracket) ::
      (.identifier, element.name.toList) :: (middle ++ tail) ∧
    lexemes tags .markup other.toList = front ++ (.openBracket, tagMark .openBracket) ::
      (.identifier, new.toList) :: (middle ++ last) ∧
    element.opening.nameSpan = ⟨nameStart front .openBracket,
      nameStart front .openBracket + byteLength element.name.toList⟩ ∧
    ClosingLexemes new.toList (nameStart front .openBracket + byteLength element.name.toList +
      byteLength (spelling middle)) element.closing tail last

/-- The lexemes between the name of an open tag and a close tag behind it. -/
theorem exists_between {first second back behind : List Lexeme} {mark close : List Char}
    {name : List Char} (same : first ++ (.openBracket, mark) :: (.identifier, name) :: back =
      second ++ (.closingOpenBracket, close) :: behind)
    (before : byteLength (spelling first) < byteLength (spelling second)) :
    ∃ middle, second = first ++ (.openBracket, mark) :: (.identifier, name) :: middle ∧
      back = middle ++ (.closingOpenBracket, close) :: behind := by
  rcases List.append_eq_append_iff.mp same with ⟨tail, rfl, later⟩ | ⟨tail, rfl, _⟩
  · clear same
    match tail with
    | [] => exact absurd before (by simp)
    | [_] => cases later
    | _ :: _ :: middle =>
      cases later
      exact ⟨middle, rfl, rfl⟩
  · rw [spelling_append, byteLength_append] at before
    omega

theorem closesLiteral_tagMark {name rest : List Char} (starts : startsName rest = true) :
    closesLiteral name (tagMark .openBracket ++ rest) = false :=
  closesLiteral_of_startsName starts

/-- **An open tag with another name.** -/
theorem TagAt.renamed_open {chars : List Char} {read : List Lexeme} {name behind new after : List Char}
    (here : TagAt tags chars read .openBracket name behind) (proper : isName new = true)
    (ends : EndsName after) :
    TagAt tags (spelling read ++ (tagMark .openBracket ++ (new ++ after))) read .openBracket new
      after := by
  refine here.renamed (by decide) proper ends fun literal _ => ?_
  rw [closesLiteral_tagMark (startsName_append here.proper behind),
    closesLiteral_tagMark (startsName_append proper after)]

/-- **A close tag with another name**, if both are no names of literal elements. -/
theorem TagAt.renamed_close {chars : List Char} {read : List Lexeme}
    {name behind new : List Char} (here : TagAt tags chars read .closingOpenBracket name behind)
    (proper : isName new = true) (plain : tags.contains (String.ofList name) = false)
    (other : tags.contains (String.ofList new) = false) :
    TagAt tags (spelling read ++ (tagMark .closingOpenBracket ++ (new ++ behind))) read
      .closingOpenBracket new behind := by
  refine here.renamed (by decide) proper here.ends fun literal kept => ?_
  rw [closesLiteral_of_name here.proper here.ends plain kept,
    closesLiteral_of_name proper here.ends other kept]

theorem keptBehind_toList (name : String) :
    keptBehind tags .openBracket name.toList = tags.kept name := by
  rw [keptBehind, if_pos rfl, String.ofList_toList]

theorem keptBehind_closing (name : List Char) :
    keptBehind tags .closingOpenBracket name = none := rfl

section Sources

variable {element : Element} (new : String) {front : List Lexeme} {behind : List Char}

theorem toList_respelled_none (none : element.closing = none)
    (whole : source.toList =
      spelling front ++ (tagMark .openBracket ++ (element.name.toList ++ behind)))
    (place : element.opening.nameSpan = ⟨nameStart front .openBracket,
      nameStart front .openBracket + byteLength element.name.toList⟩) :
    (element.respelled source new).toList =
      spelling front ++ (tagMark .openBracket ++ (new.toList ++ behind)) := by
  unfold Element.respelled
  rw [none, Option.elim_none, ← List.append_assoc]
  exact toList_replaceAt element.name.toList new (by rw [whole, List.append_assoc]) place

theorem toList_respelled_some {close : CloseTag} {middle : List Lexeme}
    (some : element.closing = some close)
    (whole : source.toList = spelling front ++ (tagMark .openBracket ++ (element.name.toList ++
      (spelling middle ++ (tagMark .closingOpenBracket ++ (close.name.toList ++ behind))))))
    (place : element.opening.nameSpan = ⟨nameStart front .openBracket,
      nameStart front .openBracket + byteLength element.name.toList⟩)
    (closes : close.nameSpan = ⟨nameStart front .openBracket + byteLength element.name.toList +
      byteLength (spelling middle) + 2, nameStart front .openBracket +
        byteLength element.name.toList + byteLength (spelling middle) + 2 +
          byteLength close.name.toList⟩) :
    (element.respelled source new).toList = spelling front ++ (tagMark .openBracket ++ (new.toList ++
      (spelling middle ++ (tagMark .closingOpenBracket ++ (new.toList ++ behind))))) := by
  have first : (replaceAt source close.nameSpan new).toList = spelling front ++
      tagMark .openBracket ++ element.name.toList ++ spelling middle ++
        tagMark .closingOpenBracket ++ (new.toList ++ behind) := by
    refine toList_replaceAt close.name.toList new (by rw [whole]; simp only [List.append_assoc]) ?_
    rw [closes, nameStart]
    simp only [byteLength_append]
    rfl
  unfold Element.respelled
  rw [some, Option.elim_some, ← List.append_assoc]
  refine toList_replaceAt element.name.toList new ?_ place
  rw [first]
  simp only [List.append_assoc]

/-- Two sources whose lexemes differ in the name of an element without a close tag. -/
theorem respells_of_none {middle : List Lexeme} {other : List Char} (none : element.closing = none)
    (first : lexemes tags .markup source.toList = front ++ (.openBracket, tagMark .openBracket) ::
      (.identifier, element.name.toList) :: middle)
    (second : lexemes tags .markup other = front ++ (.openBracket, tagMark .openBracket) ::
      (.identifier, new.toList) :: middle)
    (place : element.opening.nameSpan = ⟨nameStart front .openBracket,
      nameStart front .openBracket + byteLength element.name.toList⟩) :
    element.Respells tags source (element.respelled source new) new := by
  have whole := (lexemes_cut tags .markup source.toList).whole
  have written := (lexemes_cut tags .markup other).whole
  rw [first] at whole
  rw [second] at written
  simp only [spelling_append, spelling_cons, List.append_nil] at whole written
  have same := (toList_respelled_none new none whole.symm place).trans written
  refine ⟨front, middle, [], [], ?_, ?_, place, none ▸ .none []⟩
  · rw [first, List.append_nil]
  · rw [same, second, List.append_nil]

/-- Two sources whose lexemes differ in the names in both tags of an element. -/
theorem respells_of_some {close : CloseTag} {middle rest : List Lexeme} {other : List Char}
    (some : element.closing = some close)
    (first : lexemes tags .markup source.toList = front ++ (.openBracket, tagMark .openBracket) ::
      (.identifier, element.name.toList) :: (middle ++
        (.closingOpenBracket, tagMark .closingOpenBracket) ::
          (.identifier, close.name.toList) :: rest))
    (second : lexemes tags .markup other = front ++ (.openBracket, tagMark .openBracket) ::
      (.identifier, new.toList) :: (middle ++
        (.closingOpenBracket, tagMark .closingOpenBracket) :: (.identifier, new.toList) :: rest))
    (place : element.opening.nameSpan = ⟨nameStart front .openBracket,
      nameStart front .openBracket + byteLength element.name.toList⟩)
    (spot : close.nameSpan = ⟨nameStart front .openBracket + byteLength element.name.toList +
      byteLength (spelling middle) + 2, nameStart front .openBracket +
        byteLength element.name.toList + byteLength (spelling middle) + 2 +
          byteLength close.name.toList⟩) :
    element.Respells tags source (element.respelled source new) new := by
  have whole := (lexemes_cut tags .markup source.toList).whole
  have written := (lexemes_cut tags .markup other).whole
  rw [first] at whole
  rw [second] at written
  simp only [spelling_append, spelling_cons, List.append_nil] at whole written
  have same := (toList_respelled_some new some whole.symm place spot).trans written
  exact ⟨front, middle, _, _, first, same ▸ second, place, some ▸ .some rest spot⟩

end Sources

/-- Behind the name of an element that is not read as a literal one the lexer reads the same under
another name. -/
theorem lexemes_renamed {old new : String} {behind : List Char}
    (same : tags.contains new = tags.contains old)
    (left : tags.contains old = true →
      ∀ item ∈ endOf (lexemes tags (.tag (tags.kept old)) behind), item.1 ≠ .closeBracket) :
    lexemes tags (.tag (tags.kept new)) behind = lexemes tags (.tag (tags.kept old)) behind := by
  unfold LiteralTags.kept at left ⊢
  by_cases literal : tags.contains old = true
  · have left := left literal
    rw [if_pos literal] at left ⊢
    rw [if_pos (same.trans literal)]
    exact lexemes_left .tag left
  · rw [if_neg literal, if_neg (same ▸ literal)]

/-- **An element without a close tag that is not read as a literal one.** -/
theorem respells_of_begins {element : Element} {new : String} {terminator : Terminator}
    (begins : element.opening.Begins tags source terminator) (none : element.closing = none)
    (proper : isName new.toList = true) (same : tags.contains new = tags.contains element.name) :
    element.Respells tags source (element.respelled source new) new := by
  obtain ⟨front, behind, here, _, place, left⟩ := begins.tagAt
  have renamed := (here.renamed_open proper here.ends).lexed
  rw [keptBehind_toList, lexemes_renamed same fun literal => (left literal).2,
    ← keptBehind_toList] at renamed
  exact respells_of_none new none here.lexed renamed place

/-- **An element with a close tag that is not read as a literal one.** -/
theorem respells_of_isClosedBy {element : Element} {new : String} {close : CloseTag}
    (begins : element.opening.Begins tags source .close) (some : element.closing = some close)
    (closes : element.opening.IsClosedBy tags source close)
    (before : element.opening.span.start < close.span.start)
    (proper : isName new.toList = true) (same : tags.contains new = tags.contains element.name) :
    element.Respells tags source (element.respelled source new) new := by
  obtain ⟨front, behind, here, start, place, left⟩ := begins.tagAt
  obtain ⟨second, after, there, stop, spot⟩ := closes.1.tagAt
  have plain : tags.contains element.name = false := by
    rw [Bool.eq_false_iff]
    exact fun literal => (left literal).1 rfl
  have bare : ∀ {name : String}, tags.contains name = false →
      tags.contains (String.ofList name.toList) = false := by
    intro name free
    rwa [String.ofList_toList]
  have ended : tags.contains close.name = false := by
    rw [← contains_of_equalIgnoringCase closes.2]
    exact plain
  rw [start, stop] at before
  obtain ⟨middle, rfl, inside⟩ := exists_between (here.lexed.symm.trans there.lexed) before
  -- The close tag is renamed first, and the open tag in the source that this makes.
  have closed := there.renamed_close proper (bare ended) (bare (same.trans plain))
  have again := closed.lexed
  rw [List.append_assoc, List.cons_append, keptBehind_closing] at again
  obtain ⟨name, rest, opened, tail⟩ := exists_tagAt again (by decide)
  obtain ⟨equal, tail⟩ := List.cons.inj tail
  obtain rfl : element.opening.name.toList = name := (Prod.mk.inj equal).2
  have renamed := (opened.renamed_open proper opened.ends).lexed
  have kept : keptBehind tags .openBracket new.toList =
      keptBehind tags .openBracket element.name.toList := by
    rw [keptBehind_toList, keptBehind_toList]
    unfold LiteralTags.kept
    rw [same, plain]
    rfl
  have lexed := there.lexed
  rw [List.append_assoc, keptBehind_closing] at lexed
  rw [kept] at renamed
  refine respells_of_some new some lexed (renamed.trans ?_) place ?_
  · exact congrArg (fun later => front ++ (.openBracket, tagMark .openBracket) ::
      (.identifier, new.toList) :: later) tail.symm
  · rw [spot]
    simp only [nameStart, spelling_append, spelling_cons, byteLength_append, Nat.add_assoc]
    rfl

theorem closesLiteral_closeTag {name written blanks : List Char} (more : List Char)
    (letters : written.map Char.toLower = name.map Char.toLower) (blank : AreBlank blanks) :
    closesLiteral name (tagMark .closingOpenBracket ++ (written ++ (blanks ++ '>' :: more))) =
      true := by
  refine closesLiteral_iff.mpr ⟨_, ⟨written, blanks, rfl, letters, blank⟩, more, ?_⟩
  simp [tagMark]

/-- **A literal element under another name**, if the close tag behind its body is one of that name. -/
theorem LiteralAt.renamed {chars name new text after another : List Char}
    {read inside : List Lexeme} (here : LiteralAt tags chars read inside name text after)
    (known : tags.kept (String.ofList name) = some name)
    (kept : tags.kept (String.ofList new) = some new) (proper : isName new = true)
    (pair : after = another ∨ TagPair after another)
    (finish : after = [] ∨ closesLiteral name after = true)
    (last : another = [] ∨ closesLiteral new another = true) (opened : IsOpen new text another) :
    lexemes tags .markup chars = read ++ (.openBracket, tagMark .openBracket) ::
        (.identifier, name) :: (inside ++ (.closeBracket, ['>']) :: lexeme .textContent text ++
          lexemes tags .markup after) ∧
      lexemes tags .markup (spelling read ++ (tagMark .openBracket ++ (new ++
        (spelling inside ++ '>' :: (text ++ another))))) = read ++
          (.openBracket, tagMark .openBracket) :: (.identifier, new) ::
            (inside ++ (.closeBracket, ['>']) :: lexeme .textContent text ++
              lexemes tags .markup another) := by
  obtain ⟨_, closed⟩ := lexemes_closed (.tag : Swaps name new _ _) pair rfl here.closed here.others rfl
  have ends : EndsName (spelling inside ++ '>' :: (text ++ another)) := by
    have before := here.tag.ends
    generalize spelling inside = front at before ⊢
    cases front with
    | nil => exact before
    | cons => exact before
  refine ⟨?_, ?_⟩
  · rw [here.tag.lexed, keptBehind, if_pos rfl, known, here.closed,
      lexemes_of_isOpen here.opened finish]
    simp
  · rw [(here.tag.renamed_open proper ends).lexed, keptBehind, if_pos rfl, kept, closed,
      lexemes_of_isOpen opened last]
    simp

/-- **An element that is read as a literal one.** -/
theorem respells_of_isRead {element : Element} {body : TextNode} {new : String}
    (read : element.opening.IsRead tags source body element.closing)
    (proper : isName new.toList = true) (same : tags.contains new = tags.contains element.name)
    (none : ∀ occurrence, occurrence <:+: body.value.toList → ¬ IsCloseTag new.toList occurrence) :
    element.Respells tags source (element.respelled source new) new := by
  obtain ⟨front, inside, after, here, place, literal, finish⟩ := read.literalAt
  have literal : tags.contains element.name = true := literal
  have known : tags.kept (String.ofList element.name.toList) = some element.name.toList := by
    rw [String.ofList_toList, LiteralTags.kept, if_pos literal]
  have kept : tags.kept (String.ofList new.toList) = some new.toList := by
    rw [String.ofList_toList, LiteralTags.kept, if_pos (same.trans literal)]
  have free : '<' ∉ new.toList := fun member => by
    cases List.all_eq_true.mp (Bool.and_eq_true_iff.mp proper).2 '<' member
  have size : byteLength (spelling (inside ++ (.closeBracket, ['>']) ::
      lexeme .textContent body.value.toList)) =
        byteLength (spelling inside) + 1 + byteLength body.value.toList := by
    rw [spelling_append, spelling_cons, spelling_lexeme, byteLength_append, byteLength_append,
      Nat.add_assoc]
    rfl
  generalize closing : element.closing = close at finish
  cases finish with
  | none =>
    obtain ⟨first, second⟩ := here.renamed known kept proper (.inl rfl) (.inl rfl) (.inl rfl)
      (isOpen_of_not_isCloseTag free none fun _ absurd => by cases absurd)
    exact respells_of_none new closing first second place
  | @some close written blanks more letters blank text spot =>
    have named : isName written = true := (isName_congr letters).trans here.tag.proper
    have ends : EndsName (blanks ++ '>' :: more) := blank.ends_name more
    have head : ∀ char ∈ (tagMark .closingOpenBracket ++
        (new.toList ++ (blanks ++ '>' :: more))).head?, char = '<' :=
      fun char first => (Option.some.inj first).symm
    obtain ⟨first, second⟩ := here.renamed known kept proper
      (.inr (tagPair_tagMark _ (startsName_append named _) (startsName_append proper _)))
      (.inr (closesLiteral_closeTag more letters blank)) (.inr (closesLiteral_closeTag more rfl blank))
      (isOpen_of_not_isCloseTag free none head)
    rw [lexemes_tagMark (.inl rfl) (by decide) named ends, keptBehind_closing] at first
    rw [lexemes_tagMark (.inl rfl) (by decide) proper ends, keptBehind_closing] at second
    obtain rfl : written = close.name.toList := by rw [text, String.toList_ofList]
    refine respells_of_some new closing first second place ?_
    rw [spot, size]
    simp only [Nat.add_assoc]
    rfl

/-- **A source with another name in the tags of an element of it** is read as before but for the two
names, whatever is around the element and in it. The new name has to be literal if the old one is,
and then no close tag of the new name may stand in the body. -/
theorem respells_of_below {element : Element} {new : String}
    (below : (Node.root (parse tags source).root).Below (.element element))
    (proper : isName new.toList = true) (same : tags.contains new = tags.contains element.name)
    (free : ∀ body, element.body = .literal body →
      ∀ occurrence, occurrence <:+: body.value.toList → ¬ IsCloseTag new.toList occurrence) :
    element.Respells tags source (element.respelled source new) new := by
  have read := parse_originates tags source _ below
  have opens := parse_originates tags source _ (below.tail List.mem_cons_self)
  have placed := placed_parse tags source _ below
  obtain ⟨tag, body, closing, span⟩ := element
  have before : ∀ close, closing = some close → tag.span.start < close.span.start := by
    rintro close rfl
    have apart := placed.apart
    simp only [Node.children, List.cons_append, List.pairwise_cons] at apart
    have behind : tag.span.stop ≤ close.span.start := apart.1 (.closeTag close)
      (List.mem_append_right _ (List.mem_map.mpr ⟨close, List.mem_singleton_self _, rfl⟩))
    exact Nat.lt_of_lt_of_le (OpenTag.Opens.start_lt_stop opens) behind
  have plain : ∀ terminator, tag.Begins tags source terminator →
      (∀ close ∈ closing, terminator = .close ∧ tag.IsClosedBy tags source close) →
      Element.Respells ⟨tag, body, closing, span⟩ tags source
        (Element.respelled ⟨tag, body, closing, span⟩ source new) new := by
    intro terminator begins closes
    cases closing with
    | none => exact respells_of_begins begins rfl proper same
    | some close =>
      obtain ⟨rfl, closed⟩ := closes close rfl
      exact respells_of_isClosedBy begins rfl closed (before close rfl) proper same
  cases body with
  | literal text => exact respells_of_isRead read proper same (free text rfl)
  | selfClosing | children =>
    obtain ⟨terminator, begins, closes⟩ := read
    exact plain terminator begins closes

end PromptMarkup.Markup
