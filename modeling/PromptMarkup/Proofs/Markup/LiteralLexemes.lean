/-
**The lexemes of a literal element under another name.**

In the open tag of a literal element the lexer carries the name of the element, which it does not
look at before the body. So up to the end of the tag it reads the same under any name, and the body
is the same text if it is closed under both names at the same place.

* `Swaps`: modes in the open tag of a literal element under one name and under another;
* `step_swaps`: a step in such modes;
* `lexemes_left`: a tag that ends without its closing bracket;
* `lexemes_closed`: a tag up to its closing bracket;
* `lexemes_of_isOpen`: the body of a literal element.
-/

import PromptMarkup.Proofs.Markup.TagLexemes

namespace PromptMarkup.Markup

open Text

variable {tags : LiteralTags} {old new : List Char}

/-! ### Steps -/

/-- Modes in the open tag of a literal element under one name and under another. -/
inductive Swaps (old new : List Char) : Mode → Mode → Prop
  | tag : Swaps old new (.tag (some old)) (.tag (some new))
  | quoted (mark : QuoteMark) : Swaps old new (.quoted mark (some old)) (.quoted mark (some new))

/-- A step in the open tag of a literal element under one name and under another. -/
inductive StepSwaps (old new : List Char) : Step → Step → Prop
  | stays {read : List Lexeme} {mode other : Mode} (rest : List Char) :
      (∀ item ∈ read, item.1 ∉ endingKinds) → Swaps old new mode other →
      StepSwaps old new ⟨read, mode, rest⟩ ⟨read, other, rest⟩
  /-- An angle bracket that opens nothing takes the lexer out of the tag. -/
  | strays {read : List Lexeme} (rest : List Char) : (∀ item ∈ read, item.1 ∉ endingKinds) →
      StepSwaps old new ⟨read, .markup, rest⟩ ⟨read, .markup, rest⟩
  | leaves {item : Lexeme} {more : List Lexeme} (mode : Mode) (rest : List Char) :
      item.1 ∈ leavingKinds → StepSwaps old new ⟨item :: more, mode, rest⟩ ⟨item :: more, mode, rest⟩
  | closes (rest : List Char) : StepSwaps old new ⟨[(.closeBracket, ['>'])], .literal old, rest⟩
      ⟨[(.closeBracket, ['>'])], .literal new, rest⟩

theorem notMem_endingKinds_of_templateLexemes (inner : List Char) :
    ∀ item ∈ (templateLexemes inner).1, item.1 ∉ endingKinds := by
  obtain ⟨_, _, _, _, same, _⟩ := templateLexemes_ends inner
  intro item member
  rw [same] at member
  rcases List.mem_cons.mp member with rfl | member
  · exact notMem_endingKinds_of_template List.mem_cons_self
  · exact notMem_endingKinds_of_template
      (List.mem_cons_of_mem _ (mem_templateKinds item member))

theorem exists_commentLexemes (inner : List Char) :
    ∃ more, (commentLexemes inner).1 = (.commentOpen, commentOpening) :: more := by
  unfold commentLexemes
  simp only
  split
  · exact ⟨_, rfl⟩
  · exact ⟨_, rfl⟩

/-- A step between tags begins with what ends a tag, or it reads nothing of the kind. -/
theorem BetweenTags.ends {chars : List Char} {step : Step}
    (between : BetweenTags tags chars step) :
    ((∀ item ∈ step.lexemes, item.1 ∉ endingKinds) ∧ step.mode = .markup) ∨
      ∃ item more, step.lexemes = item :: more ∧ item.1 ∈ leavingKinds := by
  cases between with
  | comment inner =>
    obtain ⟨more, same⟩ := exists_commentLexemes inner
    exact .inr ⟨_, more, same, by simp [leavingKinds]⟩
  | template inner => exact .inl ⟨notMem_endingKinds_of_templateLexemes inner, rfl⟩
  | closing | opening => exact .inr ⟨_, _, rfl, by simp [leavingKinds]⟩
  | text plain =>
    refine .inl ⟨List.forall_mem_singleton.mpr ?_, rfl⟩
    rcases plain with rfl | rfl <;> simp [endingKinds, leavingKinds]

/-- A step between tags takes the lexer out of the tag. -/
theorem BetweenTags.stepSwaps {chars : List Char} {step : Step}
    (between : BetweenTags tags chars step) : StepSwaps old new step step := by
  rcases between.ends with ⟨others, mode⟩ | ⟨item, more, same, leaving⟩
  · obtain ⟨read, stand, rest⟩ := step
    obtain rfl : stand = .markup := mode
    exact .strays rest others
  · obtain ⟨read, stand, rest⟩ := step
    obtain rfl : read = item :: more := same
    exact .leaves stand rest leaving

/-- **A step in the open tag of a literal element** goes by the name only where it closes the tag. -/
theorem step_swaps (tags : LiteralTags) {mode other : Mode} (swaps : Swaps old new mode other) (first : Char)
    (rest : List Char) :
    StepSwaps old new (step tags mode first rest) (step tags other first rest) := by
  cases swaps with
  | tag =>
    have single : ∀ {kind : TokenKind} {text : List Char} {rest : List Char},
        kind ∉ endingKinds → StepSwaps old new ⟨[(kind, text)], .tag (some old), rest⟩
          ⟨[(kind, text)], .tag (some new), rest⟩ :=
      fun other => .stays _ (List.forall_mem_singleton.mpr other) .tag
    have quote : ∀ mark : QuoteMark, StepSwaps old new
        ⟨[(mark.kind, [mark.char])], .quoted mark (some old), rest⟩
        ⟨[(mark.kind, [mark.char])], .quoted mark (some new), rest⟩ :=
      fun mark => .stays _ (List.forall_mem_singleton.mpr mark.notMem_endingKinds) (.quoted mark)
    show StepSwaps old new (tagStep tags (some old) first rest) (tagStep tags (some new) first rest)
    unfold tagStep
    split
    · exact single (by decide)
    split
    · exact single (by decide)
    split
    · exact .leaves _ _ (by simp [leavingKinds])
    split
    · exact .closes rest
    split
    · exact single (by decide)
    split
    · exact quote .double
    split
    · exact quote .single
    split
    · exact (markupStep_betweenTags first rest).stepSwaps
    split
    · exact .stays _ (notMem_endingKinds_of_templateLexemes _) .tag
    · exact single (by decide)
  | quoted mark =>
    show StepSwaps old new (quotedStep mark (some old) first rest)
      (quotedStep mark (some new) first rest)
    unfold quotedStep
    split
    · exact .stays _ (List.forall_mem_singleton.mpr mark.notMem_endingKinds) .tag
    split
    · exact .stays _ (notMem_endingKinds_of_templateLexemes _) (.quoted mark)
    · exact .stays _ (List.forall_mem_singleton.mpr (by simp [endingKinds, leavingKinds]))
        (.quoted mark)

/-! ### Where a tag ends -/

/-- The lexeme with which a tag ends. -/
def endOf (lexemes : List Lexeme) : Option Lexeme :=
  lexemes.find? fun item => item.1 ∈ endingKinds

theorem endOf_append {front : List Lexeme} (others : ∀ item ∈ front, item.1 ∉ endingKinds)
    (rest : List Lexeme) : endOf (front ++ rest) = endOf rest := by
  have none : front.find? (fun item => item.1 ∈ endingKinds) = none := by
    simpa using others
  rw [endOf, List.find?_append, none]
  rfl

theorem endOf_cons {item : Lexeme} (ends : item.1 ∈ endingKinds) (rest : List Lexeme) :
    endOf (item :: rest) = some item := by
  simp [endOf, ends]

/-- Between tags no tag is closed. -/
theorem endOf_markup (tags : LiteralTags) (chars : List Char) :
    ∀ item ∈ endOf (lexemes tags .markup chars), item.1 ≠ .closeBracket := by
  induction size : chars.length using Nat.strong_induction_on generalizing chars with
  | h count ih =>
    cases chars with
    | nil =>
      rw [lexemes]
      exact fun item absurd => by cases absurd
    | cons first rest =>
      have shorter := step_length_lt tags .markup first rest
      have between : BetweenTags tags (first :: rest) (step tags .markup first rest) :=
        markupStep_betweenTags first rest
      rw [lexemes]
      generalize step tags .markup first rest = step at between shorter
      rw [size] at shorter
      rcases between.ends with ⟨others, mode⟩ | ⟨item, more, same, leaving⟩
      · rw [endOf_append others, mode]
        exact ih _ shorter _ rfl
      · rw [same, List.cons_append, endOf_cons (List.mem_cons_of_mem _ leaving)]
        intro found here
        obtain rfl := Option.some.inj here
        exact ne_of_mem_kinds leaving (by decide)

/-- **A tag that ends without its closing bracket** is read in the same way under another name, and
so is all that follows. -/
theorem lexemes_left {mode other : Mode} (swaps : Swaps old new mode other) {chars : List Char}
    (left : ∀ item ∈ endOf (lexemes tags mode chars), item.1 ≠ .closeBracket) :
    lexemes tags other chars = lexemes tags mode chars := by
  induction size : chars.length using Nat.strong_induction_on generalizing chars mode other with
  | h count ih =>
    cases chars with
    | nil => rw [lexemes, lexemes]
    | cons first rest =>
      have shorter := step_length_lt tags mode first rest
      have both := step_swaps tags swaps first rest
      rw [lexemes] at left
      rw [lexemes, lexemes]
      generalize step tags mode first rest = one at both shorter left
      generalize step tags other first rest = another at both
      rw [size] at shorter
      cases both with
      | stays rest others swaps =>
        rw [endOf_append others] at left
        exact congrArg _ (ih _ shorter swaps left rfl)
      | strays | leaves => rfl
      | closes => exact absurd rfl (left _ (endOf_cons (by decide) _))

theorem Swaps.symm {mode other : Mode} (swaps : Swaps old new mode other) :
    Swaps new old other mode := by
  cases swaps with
  | tag => exact .tag
  | quoted mark => exact .quoted mark

/-- In the open tag of a literal element a step does not look for a close tag. -/
theorem Swaps.agrees {mode other : Mode} (swaps : Swaps old new mode other)
    (one another : List Char) : TagPair.Agrees one another mode := by
  cases swaps with
  | tag | quoted =>
    refine ⟨?_, ?_⟩
    · exact fun name absurd => Mode.noConfusion absurd
    · exact fun name absurd => Mode.noConfusion absurd

/-- In a quoted value no tag is closed. -/
theorem head_quoted {mark : QuoteMark} {literal : Option (List Char)} {chars : List Char}
    {step : Step} (advances : Advances tags (.quoted mark literal) chars step) :
    ∀ item ∈ step.lexemes.head?, item.1 ∉ endingKinds := by
  intro item first
  have member := List.mem_of_mem_head? first
  cases advances with
  | unquote =>
    rw [List.mem_singleton.mp member]
    exact mark.notMem_endingKinds
  | quotedTemplate inner => exact notMem_endingKinds_of_templateLexemes inner item member
  | quotedText =>
    rw [List.mem_singleton.mp member]
    simp [endingKinds, leavingKinds]

theorem step_lexemes_ne_nil (tags : LiteralTags) (mode : Mode) (first : Char) (rest : List Char) :
    (step tags mode first rest).lexemes ≠ [] := by
  intro none
  have whole := (step_cuts tags mode first rest).whole
  have shorter := step_length_lt tags mode first rest
  rw [none] at whole
  rw [← whole] at shorter
  exact Nat.lt_irrefl _ shorter

theorem lexemes_closeBracket_literal (name rest : List Char) :
    lexemes tags (.tag (some name)) ('>' :: rest) =
      (.closeBracket, ['>']) :: lexemes tags (.literal name) rest :=
  lexemes_one rfl

/-- What is read in front of a lexeme begins with what a step reads, if the lexeme is not in that. -/
theorem exists_later {taken more read back : List Lexeme} {item : Lexeme}
    (whole : taken ++ more = read ++ item :: back) (none : item ∉ taken) :
    ∃ later, read = taken ++ later ∧ more = later ++ item :: back := by
  rcases List.append_eq_append_iff.mp whole with ⟨tail, same, behind⟩ | ⟨tail, same, behind⟩
  · exact ⟨tail, same, behind⟩
  · cases tail with
    | nil => exact ⟨[], by simpa using same.symm, behind.symm⟩
    | cons head tail =>
      obtain ⟨rfl, _⟩ := List.cons.inj behind
      exact absurd (same ▸ List.mem_append_right read List.mem_cons_self) none

/-- The step that reads the bracket with which a tag is closed. -/
theorem lexemes_closed_here {mode other : Mode} (swaps : Swaps old new mode other)
    {rest : List Char} {back : List Lexeme} {bracket : Lexeme} (kind : bracket.1 = .closeBracket)
    (cut : lexemes tags mode ('>' :: rest) = bracket :: back) :
    back = lexemes tags (.literal old) rest ∧ ∀ behind,
      lexemes tags other ('>' :: behind) = bracket :: lexemes tags (.literal new) behind := by
  cases swaps with
  | tag =>
    rw [lexemes_closeBracket_literal] at cut
    obtain ⟨rfl, rfl⟩ := List.cons.inj cut
    exact ⟨rfl, fun behind => lexemes_closeBracket_literal new behind⟩
  | quoted mark =>
    have head := head_quoted (step_advances tags (.quoted mark (some old)) '>' rest)
    have nonempty := step_lexemes_ne_nil tags (.quoted mark (some old)) '>' rest
    rw [lexemes] at cut
    generalize step tags (.quoted mark (some old)) '>' rest = step at cut head nonempty
    obtain ⟨_ | ⟨item, more⟩, next, left⟩ := step
    · exact absurd rfl nonempty
    · obtain ⟨rfl, _⟩ := List.cons.inj cut
      exact absurd (kind ▸ List.mem_cons_self) (head item rfl)

/-- A step in front of the bracket with which a tag is closed stays in the tag, and it reads the same
under another name. -/
theorem step_stays {mode other : Mode} (swaps : Swaps old new mode other) {first : Char}
    {rest : List Char} {taken : List Lexeme} {next : Mode} {left : List Char}
    (same : step tags mode first rest = ⟨taken, next, left⟩) {read back : List Lexeme}
    {bracket : Lexeme} (kind : bracket.1 = .closeBracket)
    (cut : taken ++ lexemes tags next left = read ++ bracket :: back)
    (others : ∀ item ∈ read, item.1 ∉ endingKinds) (nonempty : read ≠ []) :
    ∃ later stand, Swaps old new next stand ∧ step tags other first rest = ⟨taken, stand, left⟩ ∧
      read = taken ++ later ∧ lexemes tags next left = later ++ bracket :: back := by
  have ending : bracket.1 ∈ endingKinds := kind ▸ List.mem_cons_self
  have later : (∀ item ∈ taken, item.1 ∉ endingKinds) → ∃ later, read = taken ++ later ∧
      lexemes tags next left = later ++ bracket :: back :=
    fun plain => exists_later cut fun member => plain _ member ending
  -- What the step reads first is in front of the bracket, so that it does not end the tag.
  have inside : ∀ item ∈ taken.head?, item.1 ∉ endingKinds := by
    intro item head
    obtain ⟨lexeme, more, rfl⟩ := List.exists_cons_of_ne_nil nonempty
    obtain ⟨tail, rfl⟩ := List.head?_eq_some_iff.mp head
    obtain ⟨rfl, _⟩ := List.cons.inj cut
    exact others item List.mem_cons_self
  have both := step_swaps tags swaps first rest
  rw [same] at both
  generalize stood : step tags other first rest = last at both ⊢
  cases both with
  | stays _ plain stays =>
    obtain ⟨later, front, behind⟩ := later plain
    exact ⟨later, _, stays, rfl, front, behind⟩
  | strays _ plain =>
    obtain ⟨later, rfl, behind⟩ := later plain
    have closes := endOf_markup tags left
    rw [behind, endOf_append (List.forall_mem_append.mp others).2, endOf_cons ending] at closes
    exact absurd kind (closes _ rfl)
  | leaves _ _ leaving => exact absurd (List.mem_cons_of_mem _ leaving) (inside _ rfl)
  | closes => exact absurd List.mem_cons_self (inside _ rfl)

/-- **A tag up to its closing bracket** is read in the same way under another name, also when there
is another tag somewhere behind it. -/
theorem lexemes_closed {mode other : Mode} (swaps : Swaps old new mode other)
    {front text one another : List Char} (pair : one = another ∨ TagPair one another)
    {read back : List Lexeme} {bracket : Lexeme} (kind : bracket.1 = .closeBracket)
    (cut : lexemes tags mode (front ++ '>' :: (text ++ one)) = read ++ bracket :: back)
    (others : ∀ item ∈ read, item.1 ∉ endingKinds) (spelled : spelling read = front) :
    back = lexemes tags (.literal old) (text ++ one) ∧
      lexemes tags other (front ++ '>' :: (text ++ another)) =
        read ++ bracket :: lexemes tags (.literal new) (text ++ another) := by
  have proper := (lexemes_cut tags mode (front ++ '>' :: (text ++ one))).proper
  rw [cut] at proper
  -- The induction is on the inside of the tag, step by step.
  induction size : front.length using Nat.strong_induction_on generalizing front mode other read with
  | h count ih =>
    cases front with
    | nil =>
      obtain rfl := eq_nil_of_spelling (fun lexeme member =>
        proper lexeme (List.mem_append_left _ member)) spelled
      obtain ⟨here, there⟩ := lexemes_closed_here swaps kind cut
      exact ⟨here, there _⟩
    | cons first front =>
      have nonempty : read ≠ [] := by
        rintro rfl
        cases spelled
      have whole := (step_cuts tags mode first (front ++ '>' :: (text ++ one))).whole
      have shorter := step_length_lt tags mode first (front ++ '>' :: (text ++ one))
      rw [List.cons_append, lexemes] at cut
      generalize same : step tags mode first (front ++ '>' :: (text ++ one)) = here
        at cut whole shorter
      obtain ⟨taken, next, left⟩ := here
      obtain ⟨later, stand, swapped, there, rfl, behind⟩ :=
        step_stays swaps same kind cut others nonempty
      rw [spelling_append] at spelled
      obtain rfl : left = (spelling later ++ '>' :: text) ++ one := by
        rw [← List.cons_append, ← spelled, List.append_assoc] at whole
        simpa using List.append_cancel_left whole
      -- In the tag a step does not look at what is behind the text.
      have moved : step tags other first (front ++ '>' :: (text ++ another)) =
          ⟨taken, stand, (spelling later ++ '>' :: text) ++ another⟩ := by
        rcases pair with rfl | pair
        · exact there
        · rw [← List.cons_append, ← List.append_assoc] at there ⊢
          exact step_local tags pair (swaps.symm.agrees one another) there
      simp only [List.append_assoc, List.cons_append] at behind shorter moved
      simp only [List.length_append, List.length_cons] at shorter size
      obtain ⟨closed, again⟩ := ih _ (by omega) swapped behind (List.forall_mem_append.mp others).2
        rfl (fun lexeme member => proper lexeme (List.append_assoc taken later _ ▸
          List.mem_append_right taken member)) rfl
      refine ⟨closed, ?_⟩
      rw [List.cons_append, lexemes_step moved, again, List.append_assoc]

/-! ### Bodies -/

/-- **The body of a literal element** is one text up to its close tag or to the end. -/
theorem lexemes_of_isOpen {name text after : List Char} (opened : IsOpen name text after)
    (ends : after = [] ∨ closesLiteral name after = true) :
    lexemes tags (.literal name) (text ++ after) =
      lexeme .textContent text ++ lexemes tags .markup after := by
  cases text with
  | nil =>
    rcases ends with rfl | closes
    · rw [List.nil_append, lexemes, lexemes]
      rfl
    · exact lexemes_of_closesLiteral closes
  | cons first rest =>
    have goes := opened (first :: rest) (List.suffix_refl _) (List.cons_ne_nil _ _)
    have cut : cutWhere (closesLiteral name) (rest ++ after) = (rest, after) :=
      cutWhere_of_none (fun part suffix => opened part (suffix.trans (List.suffix_cons _ _))) ends
    refine lexemes_one ?_
    show literalStep tags name first (rest ++ after) = _
    unfold literalStep
    rw [List.cons_append] at goes
    rw [goes, cut]
    rfl

/-- A body in which no close tag of a name stands is open in front of a bracket, and at the end. -/
theorem isOpen_of_not_isCloseTag {name text after : List Char} (free : '<' ∉ name)
    (none : ∀ occurrence, occurrence <:+: text → ¬ IsCloseTag name occurrence)
    (ends : ∀ char ∈ after.head?, char = '<') : IsOpen name text after := by
  intro part suffix nonempty
  rw [Bool.eq_false_iff]
  intro closes
  obtain ⟨occurrence, tag, more, whole⟩ := closesLiteral_iff.mp closes
  rcases List.append_eq_append_iff.mp whole with ⟨tail, same, _⟩ | ⟨tail, same, rest⟩
  · refine none occurrence ?_ tag
    exact (List.prefix_append occurrence tail).isInfix.trans (same ▸ suffix.isInfix)
  · cases tail with
    | nil =>
      refine none occurrence ?_ tag
      rw [same, List.append_nil]
      exact suffix.isInfix
    | cons head tail =>
      obtain rfl := ends head (by rw [rest]; rfl)
      cases part with
      | nil => exact nonempty rfl
      | cons char part =>
        subst same
        have late : '<' ∈ part ++ '<' :: tail := List.mem_append_right part List.mem_cons_self
        exact IsCloseTag.angle_notMem tag free late

end PromptMarkup.Markup
