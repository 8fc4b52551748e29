/-
**What the lexer reads first.**

What is read first in a mode depends on how the text starts. In front of markup a run of text ends,
since no character that markup begins with can make up a mark together with the text, but for a
brace at its end.

* `lexemes_step`: the lexemes of a text are those of a step and of what the step leaves;
* `lexemes_openingBracket`, `lexemes_name` and others: the first lexeme, by the start of the text;
* `Begins`: the marks that markup begins with;
* `IsPlain`, `EndsText`: a text in which nothing begins, and what may stand behind it;
* `lexemes_text`: a run of text ends where markup begins.
-/

import PromptMarkup.Proofs.Markup.Outline
import PromptMarkup.Proofs.Markup.TemplateText

namespace PromptMarkup.Markup

open Text

variable {tags : LiteralTags}

/-! ### Steps -/

/-- The lexemes of a text that does not end are those of a step and of what the step leaves. -/
theorem lexemes_step {mode next : Mode} {first : Char} {rest after : List Char}
    {read : List Lexeme} (here : step tags mode first rest = ⟨read, next, after⟩) :
    lexemes tags mode (first :: rest) = read ++ lexemes tags next after := by
  rw [lexemes, here]

/-- The same for a step that reads one lexeme. -/
theorem lexemes_one {mode next : Mode} {first : Char} {rest after : List Char} {read : Lexeme}
    (here : step tags mode first rest = ⟨[read], next, after⟩) :
    lexemes tags mode (first :: rest) = read :: lexemes tags next after := lexemes_step here

theorem lexemes_comment (rest : List Char) :
    lexemes tags .markup (commentOpening ++ rest) =
      (commentLexemes rest).1 ++ lexemes tags .markup (commentLexemes rest).2 := by
  show lexemes tags .markup ('<' :: '!' :: '-' :: '-' :: rest) = _
  refine lexemes_step ?_
  show markupStep tags '<' ('!' :: '-' :: '-' :: rest) = _
  unfold markupStep
  rw [show '<' :: '!' :: '-' :: '-' :: rest = commentOpening ++ rest from rfl, dropPrefix?_append]

theorem lexemes_template (rest : List Char) :
    lexemes tags .markup (templateOpening ++ rest) =
      (templateLexemes rest).1 ++ lexemes tags .markup (templateLexemes rest).2 := by
  show lexemes tags .markup ('\x7b' :: '\x7b' :: rest) = _
  refine lexemes_step ?_
  show markupStep tags '\x7b' ('\x7b' :: rest) = _
  unfold markupStep
  rw [show '\x7b' :: '\x7b' :: rest = templateOpening ++ rest from rfl, dropPrefix?_append]
  rfl

theorem lexemes_templateValue (literal : Option (List Char)) (rest : List Char) :
    lexemes tags (.tag literal) (templateOpening ++ rest) =
      (templateLexemes rest).1 ++ lexemes tags (.tag literal) (templateLexemes rest).2 := by
  show lexemes tags (.tag literal) ('\x7b' :: '\x7b' :: rest) = _
  refine lexemes_step ?_
  show tagStep tags literal '\x7b' ('\x7b' :: rest) = _
  unfold tagStep
  rw [show '\x7b' :: '\x7b' :: rest = templateOpening ++ rest from rfl, dropPrefix?_append]
  rfl

theorem lexemes_closingBracket {rest : List Char} (name : startsName rest = true) :
    lexemes tags .markup ('<' :: '/' :: rest) =
      (.closingOpenBracket, ['<', '/']) :: lexemes tags (.tag none) rest := by
  refine lexemes_one ?_
  simp [step, markupStep, dropPrefix?, commentOpening, templateOpening, name]

theorem lexemes_openingBracket {rest : List Char} (name : startsName rest = true) :
    lexemes tags .markup ('<' :: rest) =
      (.openBracket, ['<']) :: lexemes tags (.tag (literalName? tags rest)) rest := by
  refine lexemes_one ?_
  obtain ⟨first, others, rfl⟩ : ∃ first others, rest = first :: others := by
    cases rest with
    | nil => cases name
    | cons first others => exact ⟨first, others, rfl⟩
  have bang : first ≠ '!' := by rintro rfl; cases name
  have slash : first ≠ '/' := by rintro rfl; cases name
  simp [step, markupStep, dropPrefix?, commentOpening, templateOpening, name, slash,
    Ne.symm bang]

/-- No blank starts a name. -/
theorem isMarkupBlank_of_isNameStart {char : Char} (start : isNameStart char = true) :
    isMarkupBlank char = false := by
  by_contra blank
  simp only [isMarkupBlank, Bool.not_eq_false, Bool.or_eq_true, decide_eq_true_eq] at blank
  rcases blank with ((rfl | rfl) | rfl) | rfl <;> cases start

theorem isNameStart_of_startsName {chars : List Char} (name : startsName chars = true) {char : Char}
    (first : char ∈ chars.head?) : isNameStart char = true := by
  cases chars with
  | nil => cases first
  | cons other rest =>
    obtain rfl := Option.some.inj first
    exact name

theorem startsName_append {name : List Char} (proper : isName name = true) (rest : List Char) :
    startsName (name ++ rest) = true := by
  obtain ⟨start, _⟩ := Bool.and_eq_true_iff.mp proper
  cases name with
  | nil => cases start
  | cons first others => exact start

section Tags

variable {literal : Option (List Char)}

theorem lexemes_space {rest : List Char} (name : startsName rest = true) :
    lexemes tags (.tag literal) (' ' :: rest) =
      (.whitespace, [' ']) :: lexemes tags (.tag literal) rest := by
  refine lexemes_one ?_
  show tagStep tags literal ' ' rest = _
  have nothing : cutWhile isMarkupBlank rest = ([], rest) := by
    refine cutWhile_of_all [] (fun _ member => by cases member) fun char here => ?_
    exact isMarkupBlank_of_isNameStart (isNameStart_of_startsName name here)
  unfold tagStep
  rw [if_pos (by decide), nothing]

/-- Nothing that continues a name comes next. -/
def EndsName (rest : List Char) : Prop := ∀ char ∈ rest.head?, isNameContinue char = false

/-- A name goes on up to a character that cannot continue it. -/
theorem lexemes_name {name rest : List Char} (proper : isName name = true)
    (ends : EndsName rest) :
    lexemes tags (.tag literal) (name ++ rest) =
      (.identifier, name) :: lexemes tags (.tag literal) rest := by
  obtain ⟨start, all⟩ := Bool.and_eq_true_iff.mp proper
  cases name with
  | nil => cases start
  | cons first others =>
    have here : isNameStart first = true := start
    refine lexemes_one ?_
    show tagStep tags literal first (others ++ rest) = _
    have continues : cutWhile isNameContinue (others ++ rest) = (others, rest) :=
      cutWhile_of_all others (List.forall_mem_cons.mp (List.all_eq_true.mp all)).2 ends
    unfold tagStep
    rw [isMarkupBlank_of_isNameStart here, if_neg Bool.false_ne_true, if_pos here, continues]

theorem lexemes_closeBracket (rest : List Char) :
    lexemes tags (.tag none) ('>' :: rest) =
      (.closeBracket, ['>']) :: lexemes tags .markup rest :=
  lexemes_one rfl

theorem lexemes_selfCloseBracket (rest : List Char) :
    lexemes tags (.tag literal) ('/' :: '>' :: rest) =
      (.selfCloseBracket, ['/', '>']) :: lexemes tags .markup rest :=
  lexemes_one rfl

theorem lexemes_equals (rest : List Char) :
    lexemes tags (.tag literal) ('=' :: rest) =
      (.equals, ['=']) :: lexemes tags (.tag literal) rest :=
  lexemes_one rfl

theorem lexemes_openingQuote (rest : List Char) :
    lexemes tags (.tag literal) ('"' :: rest) =
      (.doubleQuote, ['"']) :: lexemes tags (.quoted .double literal) rest :=
  lexemes_one rfl

theorem lexemes_closingQuote (rest : List Char) :
    lexemes tags (.quoted .double literal) ('"' :: rest) =
      (.doubleQuote, ['"']) :: lexemes tags (.tag literal) rest :=
  lexemes_one rfl

end Tags

/-! ### Texts -/

theorem dropPrefix?_eq_none {pattern chars : List Char} (other : pattern.isPrefixOf chars = false) :
    dropPrefix? pattern chars = none := by
  by_contra found
  obtain ⟨rest, same⟩ := Option.ne_none_iff_exists'.mp found
  have begins : pattern <+: chars := ⟨rest, (eq_append_of_dropPrefix? same).symm⟩
  rw [List.isPrefixOf_iff_prefix.mpr begins] at other
  cases other

/-- A word ends in front of markup and in front of a blank. -/
def endsWord (chars : List Char) : Bool := beginsMarkup chars || chars.head?.any isMarkupBlank

/-- Where no markup begins, a step reads blanks or a word. -/
theorem step_plain {first : Char} {rest : List Char}
    (plain : beginsMarkup (first :: rest) = false) :
    step tags .markup first rest =
      if isMarkupBlank first then
        ⟨[(.whitespace, first :: (cutWhile isMarkupBlank rest).1)], .markup,
          (cutWhile isMarkupBlank rest).2⟩
      else
        ⟨[(.textContent, first :: (cutWhere endsWord rest).1)], .markup,
          (cutWhere endsWord rest).2⟩ := by
  simp only [beginsMarkup, Bool.or_eq_false_iff] at plain
  obtain ⟨⟨template, comment⟩, tag⟩ := plain
  have closing : ¬(first = '<' ∧ rest.head? = some '/' ∧ startsName (rest.drop 1) = true) := by
    rintro ⟨rfl, slash, name⟩
    obtain ⟨more, rfl⟩ := List.head?_eq_some_iff.mp slash
    have named : startsName more = true := name
    have other : startsName more = false := tag
    rw [named] at other
    cases other
  have opening : ¬(first = '<' ∧ startsName rest = true) := by
    rintro ⟨rfl, name⟩
    split at tag
    next same =>
      cases same
      cases name
    next same =>
      cases same
      rw [name] at tag
      cases tag
    next other => exact other rest rfl
  show markupStep tags first rest = _
  unfold markupStep
  rw [dropPrefix?_eq_none comment, dropPrefix?_eq_none template, if_neg closing, if_neg opening]
  rfl

/-- Cutting does not look past a place where it stops. -/
theorem cutWhere_append_rest {stop : List Char → Bool} {front rest : List Char}
    (same : ∀ part, part <:+ front → part ≠ [] → stop (part ++ rest) = stop part)
    (stops : rest = [] ∨ stop rest = true) :
    cutWhere stop (front ++ rest) = ((cutWhere stop front).1, (cutWhere stop front).2 ++ rest) := by
  induction front with
  | nil =>
    cases rest with
    | nil => rfl
    | cons first rest =>
      have here : stop (first :: rest) = true := stops.resolve_left (List.cons_ne_nil _ _)
      simp [cutWhere, here]
  | cons first others ih =>
    have here := same (first :: others) (List.suffix_refl _) (List.cons_ne_nil _ _)
    have later := ih fun part suffix => same part (suffix.trans (List.suffix_cons first others))
    rw [List.cons_append] at here ⊢
    unfold cutWhere
    rw [here, later]
    split <;> rfl

/-- Cutting goes on up to a place where it stops. -/
theorem cutWhere_of_none {stop : List Char → Bool} {front rest : List Char}
    (goes : ∀ part, part <:+ front → part ≠ [] → stop (part ++ rest) = false)
    (stops : rest = [] ∨ stop rest = true) : cutWhere stop (front ++ rest) = (front, rest) := by
  induction front with
  | nil =>
    cases rest with
    | nil => rfl
    | cons first rest =>
      have here : stop (first :: rest) = true := stops.resolve_left (List.cons_ne_nil _ _)
      simp [cutWhere, here]
  | cons first others ih =>
    have here := goes (first :: others) (List.suffix_refl _) (List.cons_ne_nil _ _)
    have later := ih fun part suffix => goes part (suffix.trans (List.suffix_cons first others))
    rw [List.cons_append] at here ⊢
    unfold cutWhere
    rw [here, later]
    rfl

/-- A text in which nothing begins, nor with the brace of a template behind it. -/
structure IsPlain (chars : List Char) : Prop where
  plain : ∀ rest, rest <:+ chars → beginsMarkup rest = false
  last : chars.getLast? ≠ some '\x7b'

theorem IsPlain.suffix {chars part : List Char} (text : IsPlain chars) (suffix : part <:+ chars) :
    IsPlain part where
  plain := fun rest inside => text.plain rest (inside.trans suffix)
  last := by
    obtain ⟨front, rfl⟩ := suffix
    cases part with
    | nil => simp
    | cons first rest =>
      rw [← List.getLast?_append_of_ne_nil front (List.cons_ne_nil first rest)]
      exact text.last

/-- A mark, and a name behind it if it is that of a tag. -/
inductive Begins : List Char → Prop
  | template (rest : List Char) : Begins ('\x7b' :: '\x7b' :: rest)
  | comment (rest : List Char) : Begins ('<' :: '!' :: '-' :: '-' :: rest)
  | closing (char : Char) (rest : List Char) :
      isNameStart char = true → Begins ('<' :: '/' :: char :: rest)
  | opening (char : Char) (rest : List Char) :
      isNameStart char = true → Begins ('<' :: char :: rest)

theorem begins_of_tag (mark : List Char) {rest : List Char}
    (begins : ∀ char rest, isNameStart char = true → Begins (mark ++ char :: rest))
    (name : startsName rest = true) : Begins (mark ++ rest) := by
  cases rest with
  | nil => cases name
  | cons char rest => exact begins char rest name

theorem beginsMarkup_iff {chars : List Char} : beginsMarkup chars = true ↔ Begins chars := by
  constructor
  · intro begins
    simp only [beginsMarkup, Bool.or_eq_true] at begins
    rcases begins with (template | comment) | tag
    · obtain ⟨more, rfl⟩ := List.isPrefixOf_iff_prefix.mp template
      exact .template more
    · obtain ⟨more, rfl⟩ := List.isPrefixOf_iff_prefix.mp comment
      exact .comment more
    · split at tag
      · exact begins_of_tag ['<', '/'] Begins.closing tag
      · exact begins_of_tag ['<'] Begins.opening tag
      · cases tag
  · intro begins
    cases begins with
    | template => rfl
    | comment => rfl
    | closing char rest name => simp [beginsMarkup, startsName, name]
    | opening char rest name =>
      have slash : char ≠ '/' := by rintro rfl; cases name
      simp [beginsMarkup, startsName, name, slash]

/-- The end of a text, or a place where markup begins. -/
def EndsText (rest : List Char) : Prop := rest = [] ∨ beginsMarkup rest = true

theorem EndsText.head {rest : List Char} (ends : EndsText rest) :
    ∀ char ∈ rest.head?, char = '<' ∨ char = '\x7b' := by
  rcases ends with rfl | begins
  · exact fun _ member => by cases member
  · intro char member
    cases beginsMarkup_iff.mp begins with
    | template => exact .inr (Option.some.inj member).symm
    | comment | closing | opening => exact .inl (Option.some.inj member).symm

/-- A character that markup does not begin with stands in front of the place where it does. -/
theorem EndsText.front {front rest tail : List Char} {char : Char} (ends : EndsText rest)
    (whole : front ++ rest = char :: tail) (angle : char ≠ '<') (brace : char ≠ '\x7b') :
    ∃ more, front = char :: more ∧ more ++ rest = tail := by
  cases front with
  | nil =>
    obtain rfl : rest = char :: tail := whole
    rcases ends.head char rfl with same | same
    · exact absurd same angle
    · exact absurd same brace
  | cons first front =>
    obtain ⟨rfl, rfl⟩ := List.cons.inj whole
    exact ⟨front, rfl, rfl⟩

theorem ne_of_isNameStart {char : Char} (name : isNameStart char = true) :
    char ≠ '<' ∧ char ≠ '\x7b' := by
  constructor <;> rintro rfl <;> cases name

/-- **A text in which nothing begins does not run into the markup behind it.** -/
theorem IsPlain.beginsMarkup_append {chars rest : List Char} (text : IsPlain chars)
    (nonempty : chars ≠ []) (ends : EndsText rest) : beginsMarkup (chars ++ rest) = false := by
  have alone := text.plain chars (List.suffix_refl chars)
  have last := text.last
  by_contra begins
  rw [Bool.not_eq_false, beginsMarkup_iff] at begins
  rw [Bool.eq_false_iff, Ne, beginsMarkup_iff] at alone
  obtain ⟨first, front, rfl⟩ := List.exists_cons_of_ne_nil nonempty
  generalize whole : first :: front ++ rest = all at begins
  -- The characters of a mark behind its first one stand in the text too, but for a second brace.
  cases begins with
  | template more =>
    obtain ⟨rfl, others⟩ := List.cons.inj whole
    cases front with
    | nil => exact last rfl
    | cons second front =>
      obtain ⟨rfl, _⟩ := List.cons.inj others
      exact alone (.template front)
  | comment more =>
    obtain ⟨rfl, others⟩ := List.cons.inj whole
    obtain ⟨_, rfl, third⟩ := ends.front others (by decide) (by decide)
    obtain ⟨_, rfl, fourth⟩ := ends.front third (by decide) (by decide)
    obtain ⟨front, rfl, _⟩ := ends.front fourth (by decide) (by decide)
    exact alone (.comment front)
  | closing char more name =>
    obtain ⟨angle, brace⟩ := ne_of_isNameStart name
    obtain ⟨rfl, others⟩ := List.cons.inj whole
    obtain ⟨_, rfl, third⟩ := ends.front others (by decide) (by decide)
    obtain ⟨front, rfl, _⟩ := ends.front third angle brace
    exact alone (.closing char front name)
  | opening char more name =>
    obtain ⟨angle, brace⟩ := ne_of_isNameStart name
    obtain ⟨rfl, others⟩ := List.cons.inj whole
    obtain ⟨front, rfl, _⟩ := ends.front others angle brace
    exact alone (.opening char front name)

/-- A text ends where markup begins, or with a blank in front of that. -/
theorem IsPlain.cutWhere_append {chars rest : List Char} (text : IsPlain chars)
    (ends : EndsText rest) :
    cutWhere endsWord (chars ++ rest) =
      ((cutWhere endsWord chars).1, (cutWhere endsWord chars).2 ++ rest) := by
  refine cutWhere_append_rest (fun part suffix nonempty => ?_) ?_
  · have inside := text.suffix suffix
    unfold endsWord
    rw [inside.beginsMarkup_append nonempty ends, inside.plain part (List.suffix_refl part),
      List.head?_append_of_ne_nil _ nonempty]
  · exact ends.imp_right fun begins => by rw [endsWord, begins]; rfl

/-- Blanks end in front of markup. -/
theorem EndsText.cutWhile_append {rest : List Char} (ends : EndsText rest) (chars : List Char) :
    cutWhile isMarkupBlank (chars ++ rest) =
      ((cutWhile isMarkupBlank chars).1, (cutWhile isMarkupBlank chars).2 ++ rest) := by
  have stops : ∀ char ∈ rest.head?, isMarkupBlank char = false := fun char first => by
    rcases ends.head char first with rfl | rfl <;> rfl
  induction chars with
  | nil => exact cutWhile_of_all [] (fun _ member => by cases member) stops
  | cons first others ih =>
    unfold cutWhile at ih ⊢
    rw [List.cons_append, List.takeWhile_cons, List.dropWhile_cons, List.takeWhile_cons,
      List.dropWhile_cons]
    cases isMarkupBlank first with
    | false => rfl
    | true => simpa using ih

/-- The kinds of lexemes that a run of text is made of. -/
def isTextKind (kind : TokenKind) : Prop := kind = .whitespace ∨ kind = .textContent

/-- **A run of text ends where markup begins.** -/
theorem lexemes_text {chars rest : List Char} (text : IsPlain chars) (ends : EndsText rest) :
    lexemes tags .markup (chars ++ rest) =
        lexemes tags .markup chars ++ lexemes tags .markup rest ∧
      ∀ lexeme ∈ lexemes tags .markup chars, isTextKind lexeme.1 := by
  -- Every step leaves an end of the text, which is shorter.
  induction size : chars.length using Nat.strong_induction_on generalizing chars with
  | h count ih =>
    cases chars with
    | nil =>
      rw [lexemes]
      exact ⟨rfl, fun _ member => by cases member⟩
    | cons first others =>
      have begins : beginsMarkup (first :: (others ++ rest)) = false :=
        text.beginsMarkup_append (List.cons_ne_nil first others) ends
      have alone := @step_plain tags first others (text.plain _ (List.suffix_refl _))
      have whole := @step_plain tags first (others ++ rest) begins
      have shorter : others.length < count := by rw [← size]; exact Nat.lt_succ_self _
      by_cases blank : isMarkupBlank first
      · rw [if_pos blank] at alone whole
        rw [ends.cutWhile_append] at whole
        have suffix : (cutWhile isMarkupBlank others).2 <:+ first :: others :=
          (List.dropWhile_suffix _).trans (List.suffix_cons first others)
        obtain ⟨later, kinds⟩ := ih _ (Nat.lt_of_le_of_lt (length_cutWhile_le _ _) shorter)
          (text.suffix suffix) rfl
        rw [List.cons_append, lexemes_step whole, lexemes_step alone, later]
        exact ⟨rfl, List.forall_mem_cons.mpr ⟨.inl rfl, kinds⟩⟩
      · rw [if_neg blank] at alone whole
        rw [(text.suffix (List.suffix_cons first others)).cutWhere_append ends] at whole
        have suffix : (cutWhere endsWord others).2 <:+ first :: others :=
          List.IsSuffix.trans ⟨_, cutWhere_append _ others⟩ (List.suffix_cons first others)
        obtain ⟨later, kinds⟩ := ih _ (Nat.lt_of_le_of_lt (length_cutWhere_le _ _) shorter)
          (text.suffix suffix) rfl
        rw [List.cons_append, lexemes_step whole, lexemes_step alone, later]
        exact ⟨rfl, List.forall_mem_cons.mpr ⟨.inr rfl, kinds⟩⟩

end PromptMarkup.Markup
