/-
**The lexemes of a tag with another name.**

Behind the bracket of a tag the lexer reads a name, and nothing else of what it reads depends on the
name unless the tag is one of a literal element.

* `AreTagged`: lexemes in which every bracket of a tag has a name behind it;
* `lexemes_tagMark`: the bracket and the name of a tag;
* `TagAt`: a tag that the lexer meets somewhere in a text;
* `TagAt.renamed`: another name in its place;
* `closesLiteral_of_startsName`, `closesLiteral_of_name`: tags that close no literal element.
-/

import PromptMarkup.Proofs.Markup.LexerLocality

namespace PromptMarkup.Markup

open Text

variable {tags : LiteralTags}

/-! ### Brackets and names -/

/-- Lexemes in which every bracket of a tag has a name behind it. -/
inductive AreTagged : List Lexeme → Prop
  | nil : AreTagged []
  | other {item : Lexeme} {rest : List Lexeme} :
      item.1 ∉ tagKinds → AreTagged rest → AreTagged (item :: rest)
  | tag {item : Lexeme} {name : List Char} {rest : List Lexeme} :
      item.1 ∈ tagKinds → isName name = true → AreTagged rest →
      AreTagged (item :: (.identifier, name) :: rest)

theorem AreTagged.append {front rest : List Lexeme} (others : ∀ item ∈ front, item.1 ∉ tagKinds)
    (tagged : AreTagged rest) : AreTagged (front ++ rest) := by
  induction front with
  | nil => exact tagged
  | cons item front ih =>
    obtain ⟨here, later⟩ := List.forall_mem_cons.mp others
    exact .other here (ih later)

/-- In front of a bracket of a tag every bracket has its name, and so has that one. -/
theorem AreTagged.split {front back : List Lexeme} {item : Lexeme} (kind : item.1 ∈ tagKinds)
    (tagged : AreTagged (front ++ item :: back)) :
    AreTagged front ∧ ∃ name rest, isName name = true ∧ back = (.identifier, name) :: rest ∧
      AreTagged rest := by
  generalize same : front ++ item :: back = all at tagged
  induction tagged generalizing front with
  | nil => cases front <;> cases same
  | @other first rest differs tagged ih =>
    cases front with
    | nil =>
      obtain ⟨rfl, _⟩ := List.cons.inj same
      exact absurd kind differs
    | cons head front =>
      obtain ⟨rfl, later⟩ := List.cons.inj same
      obtain ⟨left, right⟩ := ih later
      exact ⟨.other differs left, right⟩
  | @tag first name rest mark proper tagged ih =>
    match front with
    | [] =>
      obtain ⟨rfl, later⟩ := List.cons.inj same
      exact ⟨.nil, name, rest, proper, later, tagged⟩
    | [head] =>
      obtain ⟨rfl, _⟩ := List.cons.inj (List.cons.inj same).2
      refine absurd kind ?_
      show TokenKind.identifier ∉ tagKinds
      decide
    | head :: second :: front =>
      obtain ⟨rfl, behind⟩ := List.cons.inj same
      obtain ⟨rfl, later⟩ := List.cons.inj behind
      obtain ⟨left, right⟩ := ih later
      exact ⟨.tag mark proper left, right⟩

theorem endsName_dropWhile (chars : List Char) :
    EndsName (chars.dropWhile isNameContinue) := by
  intro char member
  have := List.head?_dropWhile_not isNameContinue chars
  rw [Option.mem_def.mp member] at this
  simpa using this

theorem isName_takeWhile {chars : List Char} (name : startsName chars = true) :
    isName (chars.takeWhile isNameContinue) = true := by
  refine Bool.and_eq_true_iff.mpr ⟨?_, List.all_takeWhile⟩
  cases chars with
  | nil => cases name
  | cons first rest =>
    rw [List.takeWhile_cons, isNameContinue_of_isNameStart name, if_pos rfl]
    exact name

theorem takeWhile_name {name behind : List Char} (proper : isName name = true)
    (ends : EndsName behind) : (name ++ behind).takeWhile isNameContinue = name := by
  have all := (Bool.and_eq_true_iff.mp proper).2
  exact congrArg Prod.fst (cutWhile_of_all name (List.all_eq_true.mp all) ends)

/-- The name that a tag begins with. -/
theorem lexemes_startsName (literal : Option (List Char)) {chars : List Char}
    (name : startsName chars = true) :
    lexemes tags (.tag literal) chars = (.identifier, chars.takeWhile isNameContinue) ::
      lexemes tags (.tag literal) (chars.dropWhile isNameContinue) := by
  conv_lhs => rw [← List.takeWhile_append_dropWhile (p := isNameContinue) (l := chars)]
  exact lexemes_name (isName_takeWhile name) (endsName_dropWhile chars)

theorem notMem_tagKinds_of_template (inner : List Char) :
    ∀ item ∈ (templateLexemes inner).1, item.1 ∉ tagKinds := by
  have apart : ∀ kind ∈ .templateOpen :: templateKinds, kind ∉ tagKinds := by decide
  obtain ⟨_, _, _, _, same, _⟩ := templateLexemes_ends inner
  intro item member
  rw [same] at member
  rcases List.mem_cons.mp member with rfl | member
  · exact apart _ List.mem_cons_self
  · exact apart _ (List.mem_cons_of_mem _ (mem_templateKinds item member))

/-- A step reads no bracket of a tag, or nothing else and stands in front of a name. -/
theorem Advances.tagged {mode : Mode} {chars : List Char} {step : Step}
    (advances : Advances tags mode chars step) :
    (∀ item ∈ step.lexemes, item.1 ∉ tagKinds) ∨
      ∃ item literal, step.lexemes = [item] ∧ item.1 ∈ tagKinds ∧ step.mode = .tag literal ∧
        startsName step.rest = true := by
  have between : ∀ {chars step}, BetweenTags tags chars step →
      (∀ item ∈ step.lexemes, item.1 ∉ tagKinds) ∨
        ∃ item literal, step.lexemes = [item] ∧ item.1 ∈ tagKinds ∧ step.mode = .tag literal ∧
          startsName step.rest = true := by
    intro chars step between
    cases between with
    | closing name => exact .inr ⟨_, _, rfl, by simp [tagKinds], rfl, name⟩
    | opening name => exact .inr ⟨_, _, rfl, by simp [tagKinds], rfl, name⟩
    | comment inner =>
      have apart : ∀ kind ∈ commentKinds, kind ∉ tagKinds := by decide
      exact .inl fun item member => apart _ (mem_commentKinds inner item member)
    | template inner => exact .inl (notMem_tagKinds_of_template inner)
    | text plain =>
      refine .inl (List.forall_mem_singleton.mpr ?_)
      rcases plain with rfl | rfl <;> simp [tagKinds]
  cases advances with
  | markup here | bracket here | closeLiteral here => exact between here
  | template inner | quotedTemplate inner => exact .inl (notMem_tagKinds_of_template inner)
  | word plain =>
    refine .inl (List.forall_mem_singleton.mpr ?_)
    rcases plain with rfl | rfl | rfl <;> simp [tagKinds]
  | quote mark | unquote mark =>
    refine .inl (List.forall_mem_singleton.mpr ?_)
    cases mark <;> simp [tagKinds, QuoteMark.kind]
  | selfClose | close | equals | quotedText | body =>
    exact .inl (List.forall_mem_singleton.mpr (by simp [tagKinds]))

/-- **Every bracket of a tag has its name behind it.** -/
theorem lexemes_areTagged (tags : LiteralTags) (mode : Mode) (chars : List Char) :
    AreTagged (lexemes tags mode chars) := by
  induction size : chars.length using Nat.strong_induction_on generalizing mode chars with
  | h count ih =>
    cases chars with
    | nil =>
      rw [lexemes]
      exact .nil
    | cons first rest =>
      have shorter := step_length_lt tags mode first rest
      have advances := step_advances tags mode first rest
      rw [lexemes]
      generalize step tags mode first rest = step at shorter advances
      rw [size] at shorter
      rcases advances.tagged with others | ⟨item, literal, read, kind, stand, name⟩
      · exact .append others (ih _ shorter _ _ rfl)
      · rw [read, stand, lexemes_startsName literal name]
        refine .tag kind (isName_takeWhile name) (ih _ ?_ _ _ rfl)
        exact Nat.lt_of_le_of_lt (List.dropWhile_suffix _).length_le shorter

/-! ### One tag -/

/-- The bracket of a tag. -/
def tagMark (kind : TokenKind) : List Char := if kind = .openBracket then ['<'] else ['<', '/']

/-- The name that the lexer keeps behind the name of a tag. -/
def keptBehind (tags : LiteralTags) (kind : TokenKind) (name : List Char) : Option (List Char) :=
  if kind = .openBracket then tags.kept (String.ofList name) else none

theorem eq_tagMark {item : Lexeme} (proper : IsProper item) (kind : item.1 ∈ tagKinds) :
    item.2 = tagMark item.1 := by
  obtain ⟨kind, mark⟩ := item
  have fixed := proper.fixed
  simp only [tagKinds, List.mem_cons, List.not_mem_nil, or_false] at kind
  rcases kind with rfl | rfl
  · simpa [tagMark] using congrArg String.toList (fixed "<" rfl)
  · simpa [tagMark] using congrArg String.toList (fixed "</" rfl)

theorem lexemes_tagMark_angle (literal : Option (List Char)) (rest : List Char) :
    lexemes tags (.tag literal) ('<' :: rest) = lexemes tags .markup ('<' :: rest) := by
  have same : step tags (.tag literal) '<' rest = step tags .markup '<' rest := by
    simp [step, tagStep, isMarkupBlank, isNameStart]
  rw [lexemes, lexemes, same]

/-- **The bracket and the name of a tag**, between tags or in a tag that ends there. -/
theorem lexemes_tagMark {stand : Mode}
    (stands : stand = .markup ∨ ∃ literal, stand = .tag literal)
    {kind : TokenKind} (tag : kind ∈ tagKinds) {name behind : List Char}
    (proper : isName name = true) (ends : EndsName behind) :
    lexemes tags stand (tagMark kind ++ (name ++ behind)) =
      (kind, tagMark kind) :: (.identifier, name) ::
        lexemes tags (.tag (keptBehind tags kind name)) behind := by
  have starts := startsName_append proper behind
  have between : lexemes tags stand (tagMark kind ++ (name ++ behind)) =
      lexemes tags .markup (tagMark kind ++ (name ++ behind)) := by
    rcases stands with rfl | ⟨literal, rfl⟩
    · rfl
    · unfold tagMark
      split
      · exact lexemes_tagMark_angle literal _
      · exact lexemes_tagMark_angle literal _
  rw [between]
  simp only [tagKinds, List.mem_cons, List.not_mem_nil, or_false] at tag
  rcases tag with rfl | rfl
  · have kept : literalName? tags (name ++ behind) = tags.kept (String.ofList name) := by
      have whole := takeWhile_name proper ends
      rw [literalName?, whole, LiteralTags.kept, String.toList_ofList]
    show lexemes tags .markup ('<' :: (name ++ behind)) = _
    rw [lexemes_openingBracket starts, kept, lexemes_name proper ends]
    rfl
  · show lexemes tags .markup ('<' :: '/' :: (name ++ behind)) = _
    rw [lexemes_closingBracket starts, lexemes_name proper ends]
    rfl

/-- The lexer meets a tag with a name behind some lexemes. -/
structure TagAt (tags : LiteralTags) (chars : List Char) (read : List Lexeme) (kind : TokenKind)
    (name behind : List Char) : Prop where
  proper : isName name = true
  ends : EndsName behind
  whole : chars = spelling read ++ (tagMark kind ++ (name ++ behind))
  lexed : lexemes tags .markup chars = read ++ (kind, tagMark kind) :: (.identifier, name) ::
    lexemes tags (.tag (keptBehind tags kind name)) behind

theorem tagPair_tagMark (kind : TokenKind) {one other : List Char} (first : startsName one = true)
    (second : startsName other = true) : TagPair (tagMark kind ++ one) (tagMark kind ++ other) := by
  refine ⟨tagMark kind, one, other, ?_, rfl, rfl, first, second⟩
  unfold tagMark
  split
  · exact .inl rfl
  · exact .inr rfl

theorem isKept_of_markup : ∀ name ∈ Mode.markup.kept, IsKept tags name :=
  fun name absurd => by cases absurd

/-- **Where a bracket of a tag is read, the lexer meets the tag.** -/
theorem exists_tagAt {chars mark : List Char} {read back : List Lexeme} {kind : TokenKind}
    (cut : lexemes tags .markup chars = read ++ (kind, mark) :: back) (tag : kind ∈ tagKinds) :
    ∃ name behind, TagAt tags chars read kind name behind ∧
      back = (.identifier, name) :: lexemes tags (.tag (keptBehind tags kind name)) behind := by
  have cuts := lexemes_cut tags .markup chars
  have whole := cuts.whole
  have proper := cuts.proper
  have tagged := lexemes_areTagged tags .markup chars
  rw [cut] at whole proper tagged
  obtain ⟨_, name, rest, word, rfl, _⟩ := tagged.split tag
  obtain rfl : mark = tagMark kind :=
    eq_tagMark (proper (kind, mark) (List.mem_append_right _ List.mem_cons_self)) tag
  rw [spelling_append, spelling_cons, spelling_cons, List.append_nil] at whole
  have starts := startsName_append word (spelling rest)
  generalize name ++ spelling rest = tail at whole starts
  have split := (List.takeWhile_append_dropWhile (p := isNameContinue) (l := tail)).symm
  have here := isName_takeWhile starts
  have ends := endsName_dropWhile tail
  generalize tail.takeWhile isNameContinue = found at split here
  generalize tail.dropWhile isNameContinue = behind at split ends
  subst split
  subst whole
  obtain ⟨stand, stands, same, _⟩ := lexemes_local (tagPair_tagMark kind starts starts)
    (fun _ _ => rfl) isKept_of_markup cut tag rfl
  rw [lexemes_tagMark stands tag here ends] at same
  obtain ⟨first, later⟩ := List.cons.inj (List.cons.inj same).2
  obtain rfl : found = name := (Prod.mk.inj first).2
  subst later
  exact ⟨found, behind, ⟨here, ends, rfl, cut⟩, rfl⟩

/-- **A tag with another name.** What is read in front of it stays the same, and behind the name it
is read what stands there, in a tag of the new name. -/
theorem TagAt.renamed {chars : List Char} {read : List Lexeme} {kind : TokenKind}
    {name behind new after : List Char} (here : TagAt tags chars read kind name behind)
    (tag : kind ∈ tagKinds) (proper : isName new = true) (ends : EndsName after)
    (agree : ∀ literal, IsKept tags literal →
      closesLiteral literal (tagMark kind ++ (name ++ behind)) =
        closesLiteral literal (tagMark kind ++ (new ++ after))) :
    TagAt tags (spelling read ++ (tagMark kind ++ (new ++ after))) read kind new after := by
  have pair := tagPair_tagMark kind (startsName_append here.proper behind)
    (startsName_append proper after)
  obtain ⟨stand, stands, _, other⟩ :=
    lexemes_local pair agree isKept_of_markup (here.whole ▸ here.lexed) tag rfl
  refine ⟨proper, ends, rfl, ?_⟩
  rw [other, lexemes_tagMark stands tag proper ends]

/-! ### Names of literal elements -/

/-- A literal element is not closed by an open tag. -/
theorem closesLiteral_of_startsName {name rest : List Char} (starts : startsName rest = true) :
    closesLiteral name ('<' :: rest) = false := by
  cases rest with
  | nil => rfl
  | cons first rest =>
    have slash : first ≠ '/' := by
      rintro rfl
      cases starts
    unfold closesLiteral
    split
    next same => exact absurd (List.cons.inj (List.cons.inj same).2).1 slash
    next => rfl

/-- Whether a tag is literal does not depend on the case of its letters. -/
theorem contains_congr {first second : List Char}
    (same : first.map Char.toLower = second.map Char.toLower) :
    tags.contains (String.ofList first) = tags.contains (String.ofList second) := by
  have keeps : ∀ char : Char, (char.toLower ≠ '-' && char.toLower ≠ '_') =
      (char ≠ '-' && char ≠ '_') := by
    refine @toLower_congr (fun char => char ≠ '-' && char ≠ '_') fun char alpha => ?_
    have dash : char ≠ '-' := by
      rintro rfl
      cases alpha
    have line : char ≠ '_' := by
      rintro rfl
      cases alpha
    simp [dash, line]
  have lowered : ∀ chars : List Char, normalizeName (String.ofList chars) = String.ofList
      ((chars.map Char.toLower).filter fun char => char ≠ '-' && char ≠ '_') := by
    intro chars
    rw [normalizeName, String.toList_ofList, List.filter_map]
    exact congrArg (fun keep => String.ofList ((chars.filter keep).map Char.toLower))
      (funext fun char => (keeps char).symm)
  rw [LiteralTags.contains, LiteralTags.contains, lowered, lowered, same]

theorem contains_of_equalIgnoringCase {first second : String}
    (same : equalIgnoringCase first second = true) :
    tags.contains first = tags.contains second := by
  have equal : tags.contains (String.ofList first.toList) =
      tags.contains (String.ofList second.toList) :=
    contains_congr (String.ofList_injective (of_decide_eq_true same))
  rwa [String.ofList_toList, String.ofList_toList] at equal

/-- A close tag of a name that is not literal closes no literal element. -/
theorem closesLiteral_of_name {name behind literal : List Char} (proper : isName name = true)
    (ends : EndsName behind) (other : tags.contains (String.ofList name) = false)
    (kept : IsKept tags literal) :
    closesLiteral literal (tagMark .closingOpenBracket ++ (name ++ behind)) = false := by
  rw [Bool.eq_false_iff]
  intro closes
  obtain ⟨_, ⟨written, blanks, rfl, same, blank⟩, more, whole⟩ := closesLiteral_iff.mp closes
  have word : written.all isNameContinue = true := by
    rw [← all_isNameContinue_toLower, same, all_isNameContinue_toLower]
    exact kept.proper
  have front : (written ++ (blanks ++ '>' :: more)).takeWhile isNameContinue = written :=
    congrArg Prod.fst (cutWhile_of_all written (List.all_eq_true.mp word) (blank.ends_name more))
  have split : written ++ (blanks ++ '>' :: more) = name ++ behind := by
    have behind := (List.cons.inj (List.cons.inj whole).2).2
    simpa using behind
  obtain rfl : written = name := by
    rw [← front, split, takeWhile_name proper ends]
  rw [contains_congr same, kept.literal] at other
  cases other

end PromptMarkup.Markup
