/-
**Bodies of literal elements.**

The lexer makes one text of the body of a literal element: all that stands between the bracket that
closes the open tag and the first close tag of that name, or the end of the source. The parser takes
that text for the body, so no markup in it becomes a node.

* `IsCloseTag`, `closesLiteral_iff`: close tags of a name, and where the lexer finds one;
* `lexemes_literal`: the lexemes of the body of a literal element;
* `readLiteral_reads`: the body and the close tag that are read there;
* `literal_body`: the literal bodies of the tree of a source.
-/

import Mathlib
import PromptMarkup.Proofs.Markup.NodeOrigins
import PromptMarkup.Proofs.Markup.TagLexing

namespace PromptMarkup.Markup

open Text

variable {tags : LiteralTags} {source : String}

/-! ### Letters of either case -/

theorem toLower_of_not_isUpper {char : Char} (lower : ¬ char.isUpper = true) :
    char.toLower = char := by
  unfold Char.toLower
  refine dif_neg fun upper => lower ?_
  simpa [Char.isUpper] using upper

theorem isAlpha_toLower {char : Char} (upper : char.isUpper = true) :
    char.toLower.isAlpha = true := by
  have range : char.val ≥ 'A'.val ∧ char.val ≤ 'Z'.val := by simpa [Char.isUpper] using upper
  have lower : char.toLower.isLower = true := by
    unfold Char.toLower
    rw [dif_pos range]
    simp only [Char.isLower, Bool.and_eq_true, decide_eq_true_eq, UInt32.le_iff_toNat_le, ge_iff_le,
      UInt32.toNat_add] at range ⊢
    have first : 'A'.val.toNat = 65 ∧ 'a'.val.toNat = 97 := ⟨rfl, rfl⟩
    have last : 'Z'.val.toNat = 90 ∧ 'z'.val.toNat = 122 := ⟨rfl, rfl⟩
    have shift : ('a'.val - 'A'.val).toNat = 32 := rfl
    omega
  rw [Char.isAlpha, lower, Bool.or_true]

/-- What holds of all letters does not depend on their case. -/
theorem toLower_congr {holds : Char → Bool}
    (letters : ∀ char : Char, char.isAlpha = true → holds char = true) (char : Char) :
    holds char.toLower = holds char := by
  by_cases upper : char.isUpper = true
  · have alpha : char.isAlpha = true := by
      rw [Char.isAlpha, upper]
      rfl
    rw [letters char alpha, letters char.toLower (isAlpha_toLower upper)]
  · rw [toLower_of_not_isUpper upper]

theorem all_isNameContinue_toLower (chars : List Char) :
    (chars.map Char.toLower).all isNameContinue = chars.all isNameContinue := by
  rw [List.all_map]
  refine congrArg chars.all (funext fun char => ?_)
  exact toLower_congr (fun char alpha => by simp [isNameContinue, Char.isAlphanum, alpha]) char

theorem isName_congr {first second : List Char}
    (same : first.map Char.toLower = second.map Char.toLower) : isName first = isName second := by
  have lowered : ∀ chars : List Char, isName (chars.map Char.toLower) = isName chars := by
    intro chars
    have start : startsName (chars.map Char.toLower) = startsName chars := by
      cases chars with
      | nil => rfl
      | cons char rest =>
        show isNameStart char.toLower = isNameStart char
        exact toLower_congr (fun char alpha => by simp [isNameStart, alpha]) char
    rw [isName, start, all_isNameContinue_toLower, isName]
  rw [← lowered first, same, lowered second]

/-! ### Close tags -/

/-- A close tag of a literal element: its name in letters of either case, and blanks behind it. -/
def IsCloseTag (name occurrence : List Char) : Prop :=
  ∃ written blanks, occurrence = '<' :: '/' :: (written ++ (blanks ++ ['>'])) ∧
    written.map Char.toLower = name.map Char.toLower ∧ AreBlank blanks

theorem IsCloseTag.ne_nil {name occurrence : List Char} (closes : IsCloseTag name occurrence) :
    occurrence ≠ [] := by
  obtain ⟨written, blanks, rfl, _⟩ := closes
  exact List.cons_ne_nil _ _

theorem dropName?_eq_some {name chars rest : List Char} :
    dropName? name chars = some rest ↔
      ∃ written, chars = written ++ rest ∧ written.map Char.toLower = name.map Char.toLower := by
  induction name generalizing chars with
  | nil =>
    constructor
    · intro found
      exact ⟨[], (Option.some.inj found), rfl⟩
    · rintro ⟨written, rfl, same⟩
      obtain rfl := List.map_eq_nil_iff.mp same
      rfl
  | cons expected name ih =>
    cases chars with
    | nil =>
      constructor
      · intro found
        cases found
      · rintro ⟨written, whole, same⟩
        obtain ⟨rfl, _⟩ := List.append_eq_nil_iff.mp whole.symm
        cases same
    | cons first chars =>
      unfold dropName?
      constructor
      · intro found
        split at found
        next letter =>
          obtain ⟨written, rfl, same⟩ := ih.mp found
          exact ⟨first :: written, rfl, by rw [List.map_cons, List.map_cons, letter, same]⟩
        next => cases found
      · rintro ⟨written, whole, same⟩
        cases written with
        | nil => cases same
        | cons letter written =>
          obtain ⟨rfl, rfl⟩ := List.cons.inj whole
          obtain ⟨here, later⟩ := List.cons.inj same
          rw [if_pos here.symm]
          exact ih.mpr ⟨written, rfl, later⟩

/-- **The lexer finds a close tag** where one stands. -/
theorem closesLiteral_iff {name chars : List Char} :
    closesLiteral name chars = true ↔
      ∃ occurrence, IsCloseTag name occurrence ∧ occurrence <+: chars := by
  constructor
  · intro closes
    unfold closesLiteral at closes
    split at closes
    next rest =>
      split at closes
      next after found =>
        obtain ⟨written, rfl, same⟩ := dropName?_eq_some.mp found
        obtain ⟨more, behind⟩ := List.head?_eq_some_iff.mp (of_decide_eq_true closes)
        refine ⟨_, ⟨written, after.takeWhile isMarkupBlank, rfl, same, fun _ =>
          List.mem_takeWhile_imp⟩, more, ?_⟩
        have whole := List.takeWhile_append_dropWhile (p := isMarkupBlank) (l := after)
        rw [behind] at whole
        conv_rhs => rw [← whole]
        simp
      next => cases closes
    next => cases closes
  · rintro ⟨occurrence, ⟨written, blanks, rfl, same, blank⟩, more, rfl⟩
    have name : dropName? name (written ++ (blanks ++ ['>']) ++ more) =
        some (blanks ++ '>' :: more) := by
      refine dropName?_eq_some.mpr ⟨written, ?_, same⟩
      simp
    show closesLiteral _ ('<' :: '/' :: (written ++ (blanks ++ ['>']) ++ more)) = true
    simp only [closesLiteral, name]
    rw [List.dropWhile_append_of_pos blank]
    rfl

/-! ### Texts up to a place -/

theorem cutWhere_ends (stop : List Char → Bool) (chars : List Char) :
    (cutWhere stop chars).2 = [] ∨ stop (cutWhere stop chars).2 = true := by
  induction chars with
  | nil => exact .inl rfl
  | cons first rest ih =>
    unfold cutWhere
    split
    next here => exact .inr here
    next => exact ih

/-- Cutting goes past no place where it would stop. -/
theorem stop_of_suffix_cutWhere {stop : List Char → Bool} {chars part : List Char}
    (suffix : part <:+ (cutWhere stop chars).1) (nonempty : part ≠ []) :
    stop (part ++ (cutWhere stop chars).2) = false := by
  induction chars with
  | nil => exact absurd (List.suffix_nil.mp suffix) nonempty
  | cons first rest ih =>
    unfold cutWhere at suffix ⊢
    split at suffix
    next => exact absurd (List.suffix_nil.mp suffix) nonempty
    next goes =>
      rw [if_neg goes]
      rcases List.suffix_cons_iff.mp suffix with rfl | later
      · rw [List.cons_append, cutWhere_append]
        exact Bool.eq_false_iff.mpr goes
      · exact ih later

/-! ### Lexemes -/

/-- A text in front of a place, in which no close tag of a name begins. -/
def IsOpen (name text after : List Char) : Prop :=
  ∀ part, part <:+ text → part ≠ [] → closesLiteral name (part ++ after) = false

/-- No close tag stands in such a text. -/
theorem IsOpen.not_isCloseTag {name text after occurrence : List Char}
    (opened : IsOpen name text after) (inside : occurrence <:+: text) :
    ¬ IsCloseTag name occurrence := by
  intro closes
  obtain ⟨front, back, rfl⟩ := inside
  have none := opened (occurrence ++ back) ⟨front, (List.append_assoc _ _ _).symm⟩
    (List.append_ne_nil_of_left_ne_nil closes.ne_nil _)
  have found : closesLiteral name (occurrence ++ back ++ after) = true := by
    refine closesLiteral_iff.mpr ⟨occurrence, closes, back ++ after, ?_⟩
    rw [List.append_assoc]
  rw [none] at found
  cases found

/-- **The lexemes of the body of a literal element**: one text if there is any, up to the first
close tag of the name or the end, and behind it what stands between tags. -/
theorem lexemes_literal (tags : LiteralTags) (name chars : List Char) :
    ∃ text after, chars = text ++ after ∧ IsOpen name text after ∧
      (after = [] ∨ closesLiteral name after = true) ∧
      lexemes tags (.literal name) chars =
        lexeme .textContent text ++ lexemes tags .markup after := by
  have empty : IsOpen name [] chars := fun part suffix nonempty =>
    absurd (List.suffix_nil.mp suffix) nonempty
  cases chars with
  | nil =>
    refine ⟨[], [], rfl, empty, .inl rfl, ?_⟩
    rw [lexemes, lexemes]
    rfl
  | cons first rest =>
    by_cases closes : closesLiteral name (first :: rest) = true
    · refine ⟨[], first :: rest, rfl, empty, .inr closes, ?_⟩
      have here : step tags (.literal name) first rest = step tags .markup first rest := by
        show literalStep tags name first rest = markupStep tags first rest
        unfold literalStep
        rw [if_pos closes]
      rw [lexemes, lexemes, here]
      rfl
    · refine ⟨first :: (cutWhere (closesLiteral name) rest).1,
        (cutWhere (closesLiteral name) rest).2, ?_, ?_, cutWhere_ends _ rest, ?_⟩
      · rw [List.cons_append, cutWhere_append]
      · intro part suffix nonempty
        rcases List.suffix_cons_iff.mp suffix with rfl | later
        · rw [List.cons_append, cutWhere_append]
          exact Bool.eq_false_iff.mpr closes
        · exact stop_of_suffix_cutWhere later nonempty
      · refine lexemes_one ?_
        show literalStep tags name first rest = _
        unfold literalStep
        rw [if_neg closes]

/-! ### Readers -/

theorem name_readCloseTag {bracket token : Token} {rest : List Token}
    (kind : token.kind = .identifier) :
    (readCloseTag bracket (token :: rest)).node.name = token.text := by
  unfold readCloseTag
  rw [takeKind_of_eq kind]
  rfl

/-- Behind the name of a close tag there is nothing that could continue the name. -/
theorem AreBlank.ends_name {blanks : List Char} (blank : AreBlank blanks) (more : List Char) :
    ∀ char ∈ (blanks ++ '>' :: more).head?, isNameContinue char = false := by
  intro char first
  cases blanks with
  | nil =>
    obtain rfl := Option.some.inj first
    rfl
  | cons other blanks =>
    obtain rfl := Option.some.inj first
    have here := blank other List.mem_cons_self
    simp only [isMarkupBlank, Bool.or_eq_true, decide_eq_true_eq] at here
    rcases here with ((rfl | rfl) | rfl) | rfl <;> rfl

/-- **The close tag that the lexer finds is read as one of the name**, in letters of either case. -/
theorem readCloseTag_name (tags : LiteralTags) {name after : List Char}
    (proper : isName name = true) (closes : closesLiteral name after = true) (start : Nat) :
    ∃ bracket rest, Token.place start (lexemes tags .markup after) = bracket :: rest ∧
      bracket.kind = .closingOpenBracket ∧ bracket.span.start = start ∧
      equalIgnoringCase (readCloseTag bracket rest).node.name (String.ofList name) = true := by
  obtain ⟨_, ⟨written, blanks, rfl, same, blank⟩, more, rfl⟩ := closesLiteral_iff.mp closes
  have named : isName written = true := (isName_congr same).trans proper
  have ends := blank.ends_name more
  have whole : '<' :: '/' :: (written ++ (blanks ++ ['>'])) ++ more =
      '<' :: '/' :: (written ++ (blanks ++ '>' :: more)) := by
    simp
  rw [whole, lexemes_closingBracket (startsName_append named _), lexemes_name named ends]
  refine ⟨_, _, rfl, rfl, rfl, ?_⟩
  rw [Token.place, name_readCloseTag rfl]
  rw [equalIgnoringCase, lowerAscii, lowerAscii, String.toList_ofList, String.toList_ofList, same]
  exact decide_eq_true rfl

/-- **The body of a literal element is read up to its close tag**, or to the end of the source. -/
theorem readLiteral_reads {tag : OpenTag} {before chars : List Char} {tokens : List Token}
    (proper : isName tag.name.toList = true)
    (lexed : Lexed tags source before (.literal tag.name.toList) chars tokens) :
    ∃ text after closing, source.toList = before ++ (text ++ after) ∧
      IsOpen tag.name.toList text after ∧
      (readLiteral tag (byteLength before) tokens).node =
        .literal tag ⟨String.ofList text, ⟨byteLength before, byteLength before + byteLength text⟩⟩
          closing ∧
      (∀ close ∈ closing, equalIgnoringCase close.name tag.name = true ∧
        close.span.start = byteLength before + byteLength text) ∧
      (closing = none → after = []) := by
  obtain ⟨whole, rfl⟩ := lexed
  obtain ⟨text, after, rfl, opened, ends, shape⟩ :=
    lexemes_literal tags tag.name.toList chars
  have differs : text = [] →
      ∀ item ∈ (lexemes tags .markup after).head?, item.1 ≠ .textContent := by
    intro _ item first
    rcases ends with rfl | closes
    · rw [lexemes] at first
      cases first
    · obtain ⟨bracket, rest, placed, kind, _⟩ := readCloseTag_name tags proper closes 0
      obtain ⟨more, same⟩ := List.head?_eq_some_iff.mp first
      rw [same] at placed
      obtain ⟨rfl, _⟩ := List.cons.inj placed
      rw [show item.1 = .closingOpenBracket from kind]
      decide
  obtain ⟨token, taken, _, content, span⟩ :=
    takeKind_place .textContent (byteLength before) differs
  have body : token.elim ⟨"", ⟨byteLength before, byteLength before⟩⟩
      (fun token => (⟨token.text, token.span⟩ : TextNode)) =
        ⟨String.ofList text, ⟨byteLength before, byteLength before + byteLength text⟩⟩ := by
    rw [← content, ← span]
    cases token <;> rfl
  refine ⟨text, after, ?_⟩
  unfold readLiteral
  rw [shape]
  simp only [taken, body]
  rcases ends with rfl | closes
  · rw [lexemes]
    exact ⟨none, whole, opened, rfl, fun _ absurd => (by cases absurd), fun _ => rfl⟩
  · obtain ⟨bracket, rest, placed, kind, start, same⟩ := readCloseTag_name tags proper closes
      (byteLength before + byteLength text)
    rw [placed, takeKind_of_eq kind]
    refine ⟨_, whole, opened, rfl, ?_, fun absurd => (by cases absurd)⟩
    intro close member
    obtain rfl := Option.some.inj member
    rw [String.ofList_toList] at same
    exact ⟨same, start⟩

/-! ### Nodes of a literal element -/

/-- Of the nodes below a literal element only its body lies in the range of the body. -/
theorem eq_text_of_below {tag : OpenTag} {body : TextNode} {closing : Option CloseTag} {span : Span}
    {node : Node} (placed : (Node.element ⟨tag, .literal body, closing, span⟩).IsPlaced source)
    (below : (Node.element ⟨tag, .literal body, closing, span⟩).Below node)
    (start : node.span.start < body.span.stop) (stop : body.span.start < node.span.stop) :
    node = .text body ∨ node = .element ⟨tag, .literal body, closing, span⟩ := by
  have apart := placed.fits.apart
  rcases Relation.ReflTransGen.cases_head below with rfl | ⟨child, member, later⟩
  · exact .inr rfl
  · obtain ⟨first, last⟩ := (placed.child member).within later
    simp only [Node.children, Node.bodyNodes, List.cons_append, List.nil_append,
      List.pairwise_cons] at apart
    rcases List.mem_cons.mp member with rfl | member
    · have before : tag.span.stop ≤ body.span.start := apart.1 (.text body) List.mem_cons_self
      have inside : node.span.stop ≤ tag.span.stop := last
      omega
    · rcases List.mem_cons.mp member with rfl | member
      · rcases Relation.ReflTransGen.cases_head later with rfl | ⟨_, none, _⟩
        · exact .inl rfl
        · cases none
      · have behind : body.span.stop ≤ child.span.start := apart.2.1 child member
        omega

/-! ### Literal bodies -/

theorem stopOf_taken {start : Nat} {tokens front rest : List Token} {last : Token}
    (whole : tokens = front ++ last :: rest) :
    stopOf start (tokens.take (tokens.length - rest.length)) = last.span.stop := by
  have split : tokens = front ++ [last] ++ rest := by
    rw [whole, List.append_assoc]
    rfl
  rw [split, List.length_append, Nat.add_sub_cancel, List.take_left]
  unfold stopOf
  rw [List.getLast?_append]
  rfl

/-- An offset right behind the bracket that closes an open tag: the first closing bracket among the
tokens behind the one that opens the tag. -/
def OpenTag.ClosesAt (tags : LiteralTags) (source : String) (tag : OpenTag) (offset : Nat) : Prop :=
  ∃ bracket front closing rest,
    bracket :: (front ++ closing :: rest) <:+ tokenize tags source ∧
    bracket.kind = .openBracket ∧ bracket.span.start = tag.span.start ∧
    (∀ token ∈ front, token.kind ≠ .closeBracket) ∧
    closing.kind = .closeBracket ∧ closing.span = ⟨offset - 1, offset⟩ ∧
    closing.span.Reads source ">"

/-- **Where a literal element is read**, its body is what stands between its tags. -/
theorem OpenTag.IsRead.body_reads {tag : OpenTag} {body : TextNode} {closing : Option CloseTag}
    (read : tag.IsRead tags source body closing) :
    tag.ClosesAt tags source body.span.start ∧ body.span.Reads source body.value ∧
      (∀ occurrence, occurrence <:+: body.value.toList → ¬ IsCloseTag tag.name.toList occurrence) ∧
      (∀ close ∈ closing, equalIgnoringCase close.name tag.name = true ∧
        body.span.stop = close.span.start) ∧
      (closing = none → body.span.stop = source.utf8ByteSize) := by
  obtain ⟨bracket, rest, suffix, kind, form⟩ := read
  unfold readOpening at form
  simp only at form
  split at form
  next literal =>
    obtain ⟨closed, kept⟩ := literal
    obtain ⟨proper, before, chars, last, ⟨⟨front, taken, others⟩, mark, whole, span, lexed⟩⟩ :=
      readOpenTag_closes suffix kind closed
    have mode : (tags.kept (readOpenTag bracket rest).node.1.name).elim Mode.markup Mode.literal =
        .literal (readOpenTag bracket rest).node.1.name.toList := by
      rw [LiteralTags.kept, if_pos kept]
      rfl
    rw [mode] at lexed
    obtain ⟨text, after, close, split, opened, node, named, ends⟩ := readLiteral_reads proper lexed
    have size : byteLength (before ++ ['>']) = byteLength before + 1 := by
      rw [byteLength_append]
      rfl
    rw [size] at node named
    rw [stopOf_taken taken, span, node] at form
    cases form
    have others : ∀ token ∈ front, token.kind ≠ .closeBracket := fun token member same =>
      others token member (same ▸ List.mem_cons_self)
    refine ⟨⟨bracket, front, last, _, taken ▸ suffix, kind, rfl, others, mark, span, ?_⟩, ?_, ?_,
      ?_, ?_⟩
    · rw [span]
      exact ⟨before, chars, by rw [whole, List.append_assoc]; rfl, rfl⟩
    · refine ⟨before ++ ['>'], after, ?_, ?_⟩
      · rw [split, String.toList_ofList]
        simp only [List.append_assoc]
      · rw [size, String.toList_ofList]
    · intro occurrence inside
      rw [String.toList_ofList] at inside
      exact opened.not_isCloseTag inside
    · intro other member
      obtain ⟨same, start⟩ := named other member
      exact ⟨same, start.symm⟩
    · intro none
      rw [ends none, List.append_nil] at split
      rw [← byteLength_toList, split, byteLength_append, size]
  next => cases form

/-- **The body of a literal element is the source text behind its open tag**, for every source and
every set of literal tags. It begins right behind the bracket that closes the open tag, and no close
tag of the name, in letters of either case, stands in it. If the element has a close tag, that is of
the same name but for the case of letters, and the body ends where it starts; if it has none, the
body goes on to the end of the source. No node of the tree but the text of the body and the nodes
around the element reaches into it. -/
theorem literal_body (tags : LiteralTags) (source : String) (element : Element) (body : TextNode)
    (below : (Node.root (parse tags source).root).Below (.element element))
    (literal : element.body = .literal body) :
    element.opening.ClosesAt tags source body.span.start ∧ body.span.Reads source body.value ∧
      (∀ occurrence, occurrence <:+: body.value.toList →
        ¬ IsCloseTag element.name.toList occurrence) ∧
      (∀ close ∈ element.closing, equalIgnoringCase close.name element.name = true ∧
        body.span.stop = close.span.start) ∧
      (element.closing = none → body.span.stop = source.utf8ByteSize) ∧
      ∀ node, (Node.root (parse tags source).root).Below node →
        node.span.start < body.span.stop → body.span.start < node.span.stop →
          node = .text body ∨ node.Below (.element element) := by
  obtain ⟨tag, inner, closing, span⟩ := element
  obtain rfl : inner = .literal body := literal
  have placed := placed_parse tags source
  have read : tag.IsRead tags source body closing := parse_originates tags source _ below
  obtain ⟨starts, reads, none, named, ends⟩ := read.body_reads
  refine ⟨starts, reads, none, named, ends, fun node other start stop => ?_⟩
  have here : (Node.element ⟨tag, .literal body, closing, span⟩).IsPlaced source :=
    fun node later => placed node (below.trans later)
  obtain ⟨first, last⟩ := here.within (.single (List.mem_cons_of_mem _ List.mem_cons_self) :
    (Node.element ⟨tag, .literal body, closing, span⟩).Below (.text body))
  have text : (Node.text body).span = body.span := rfl
  rcases placed.comparable other below with around | inside | before | behind
  · exact .inr around
  · rcases eq_text_of_below here inside start stop with same | same
    · exact .inl same
    · exact .inr (same ▸ .refl)
  · rw [text] at first
    omega
  · rw [text] at last
    omega

/-- A body with a tag of another name in it, and a close tag in capital letters. -/
theorem literal_body_of_text :
    ∃ element body,
      (Node.root (parse .standard "<text>a</b></TEXT >").root).Below (.element element) ∧
      element.body = .literal body ∧ body.value = "a</b>" ∧
      (∀ occurrence, occurrence <:+: body.value.toList → ¬ IsCloseTag "text".toList occurrence) ∧
      ∀ close ∈ element.closing, body.span.stop = close.span.start := by
  let body : TextNode := ⟨"a</b>", ⟨6, 11⟩⟩
  let element : Element := ⟨⟨"text", ⟨1, 5⟩, [], ⟨0, 5⟩⟩, .literal body,
    some ⟨"TEXT", ⟨13, 17⟩, ⟨11, 19⟩⟩, ⟨0, 19⟩⟩
  have read : (parse .standard "<text>a</b></TEXT >").root.children = [.element element] := by cbv
  have below :
      (Node.root (parse .standard "<text>a</b></TEXT >").root).Below (.element element) := by
    refine .single ?_
    rw [Node.children, read]
    exact List.mem_singleton_self _
  obtain ⟨_, _, none, named, _⟩ := literal_body .standard _ element body below rfl
  exact ⟨element, body, below, rfl, rfl, none, fun close member => (named close member).2⟩

end PromptMarkup.Markup
