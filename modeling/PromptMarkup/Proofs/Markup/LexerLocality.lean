/-
**What the lexer reads up to a tag.**

A step of the lexer that ends in front of a tag does not depend on the tag, unless it looks for the
close tag of a literal element and finds that tag. So all that is read up to a tag stays the same
when another tag stands there.

* `step_local`: a step that ends in front of the tag, or at it;
* `IsKept`: the names that the lexer keeps to find a close tag by;
* `lexemes_local`: all lexemes up to a tag.
-/

import PromptMarkup.Proofs.Markup.TagFront

namespace PromptMarkup.Markup

open Text

/-! ### Steps -/

section Steps

variable {one other part left : List Char} {first : Char} {read : List Lexeme} {next : Mode}

theorem TagPair.startsName_append (pair : TagPair one other) (part : List Char) :
    startsName (part ++ one) = startsName (part ++ other) := by
  obtain ⟨first, second, rfl, rfl⟩ := pair.heads
  cases part <;> rfl

/-- A step that takes one lexeme which does not reach into the tag. -/
theorem step_eq_of_rest {kind : TokenKind} {text : List Char} {mode : Mode}
    (here : (⟨[(kind, text)], mode, part ++ one⟩ : Step) = ⟨read, next, left ++ one⟩) :
    (⟨[(kind, text)], mode, part ++ other⟩ : Step) = ⟨read, next, left ++ other⟩ := by
  obtain ⟨rfl, rfl, same⟩ := Step.mk.inj here
  rw [List.append_cancel_right same]

/-- A step that cuts off a run of characters. -/
theorem TagPair.step_cutWhile (pair : TagPair one other) {keep : Char → Bool}
    (ends : keep '<' = false) {kind : TokenKind} {mode : Mode}
    (here : (⟨[(kind, first :: (cutWhile keep (part ++ one)).1)], mode,
      (cutWhile keep (part ++ one)).2⟩ : Step) = ⟨read, next, left ++ one⟩) :
    (⟨[(kind, first :: (cutWhile keep (part ++ other)).1)], mode,
      (cutWhile keep (part ++ other)).2⟩ : Step) = ⟨read, next, left ++ other⟩ := by
  rw [pair.cutWhile_append ends] at here
  rw [pair.symm.cutWhile_append ends]
  exact step_eq_of_rest here

/-- A step that cuts off a text. -/
theorem TagPair.step_cutWhere (pair : TagPair one other) {stop : List Char → Bool}
    (blind : Blind one other stop) {mode : Mode}
    (here : (⟨[(.textContent, first :: (cutWhere stop (part ++ one)).1)], mode,
      (cutWhere stop (part ++ one)).2⟩ : Step) = ⟨read, next, left ++ one⟩) :
    (⟨[(.textContent, first :: (cutWhere stop (part ++ other)).1)], mode,
      (cutWhere stop (part ++ other)).2⟩ : Step) = ⟨read, next, left ++ other⟩ := by
  obtain ⟨rfl, rfl, same⟩ := Step.mk.inj here
  rw [cutWhere_local pair blind (Prod.ext rfl same)]

/-- A step that reads a template. -/
theorem TagPair.step_template (pair : TagPair one other) {body : List Char} {mode : Mode}
    (here : (⟨(templateLexemes (body ++ one)).1, mode, (templateLexemes (body ++ one)).2⟩ : Step) =
      ⟨read, next, left ++ one⟩) :
    (⟨(templateLexemes (body ++ other)).1, mode, (templateLexemes (body ++ other)).2⟩ : Step) =
      ⟨read, next, left ++ other⟩ := by
  obtain ⟨rfl, rfl, same⟩ := Step.mk.inj here
  rw [templateLexemes_local pair (Prod.ext rfl same)]

/-- A step that reads a comment. -/
theorem TagPair.step_comment (pair : TagPair one other) {body : List Char} {mode : Mode}
    (here : (⟨(commentLexemes (body ++ one)).1, mode, (commentLexemes (body ++ one)).2⟩ : Step) =
      ⟨read, next, left ++ one⟩) :
    (⟨(commentLexemes (body ++ other)).1, mode, (commentLexemes (body ++ other)).2⟩ : Step) =
      ⟨read, next, left ++ other⟩ := by
  obtain ⟨rfl, rfl, same⟩ := Step.mk.inj here
  rw [commentLexemes_local pair (Prod.ext rfl same)]

/-- A slash behind the bracket of a close tag stands in front of the tag behind a text. -/
theorem TagPair.exists_slash (pair : TagPair one other)
    (slash : (part ++ one).head? = some '/') : ∃ more, part = '/' :: more := by
  cases part with
  | nil =>
    obtain ⟨_, _, rfl, _⟩ := pair.heads
    cases slash
  | cons char part => exact ⟨part, congrArg (· :: part) (Option.some.inj slash)⟩

theorem TagPair.literalName? (pair : TagPair one other) (tags : LiteralTags) (part : List Char) :
    literalName? tags (part ++ one) = literalName? tags (part ++ other) := by
  have ends : isNameContinue '<' = false := by decide
  have first := congrArg Prod.fst (pair.cutWhile_append ends part)
  have second := congrArg Prod.fst (pair.symm.cutWhile_append ends part)
  unfold Markup.literalName?
  simp only [cutWhile] at first second
  rw [first, second]

theorem markupStep_local (tags : LiteralTags) (pair : TagPair one other)
    (here : markupStep tags first (part ++ one) = ⟨read, next, left ++ one⟩) :
    markupStep tags first (part ++ other) = ⟨read, next, left ++ other⟩ := by
  unfold markupStep at here ⊢
  have comment : '<' ∉ ['!', '-', '-'] := by decide
  have brace : '<' ∉ ['\x7b'] := by decide
  rw [commentOpening, templateOpening, pair.dropPrefix?_cons comment, pair.dropPrefix?_cons brace]
    at here
  rw [commentOpening, templateOpening, pair.symm.dropPrefix?_cons comment,
    pair.symm.dropPrefix?_cons brace]
  generalize dropPrefix? ['<', '!', '-', '-'] (first :: part) = comment at here ⊢
  generalize dropPrefix? ['\x7b', '\x7b'] (first :: part) = template at here ⊢
  cases comment with
  | some body => exact pair.step_comment here
  | none =>
    cases template with
    | some body => exact pair.step_template here
    | none =>
      simp only [Option.map_none] at here ⊢
      have behind : (part ++ one).head? = some '/' →
          startsName ((part ++ one).drop 1) = startsName ((part ++ other).drop 1) := by
        intro slash
        obtain ⟨more, rfl⟩ := pair.exists_slash slash
        exact pair.startsName_append more
      rw [← pair.head?_append part, ← pair.startsName_append part, ← pair.literalName? tags part]
      split at here
      next closing =>
        obtain ⟨angle, slash, name⟩ := closing
        obtain ⟨more, rfl⟩ := pair.exists_slash slash
        rw [if_pos ⟨angle, slash, behind slash ▸ name⟩]
        exact step_eq_of_rest here
      next goes =>
        have goes : ¬(first = '<' ∧ (part ++ one).head? = some '/' ∧
            startsName ((part ++ other).drop 1) = true) := by
          rintro ⟨angle, slash, name⟩
          exact goes ⟨angle, slash, (behind slash).trans name⟩
        rw [if_neg goes]
        split at here
        next opening =>
          rw [if_pos opening]
          exact step_eq_of_rest here
        next text =>
          rw [if_neg text]
          split at here
          next blank =>
            rw [if_pos blank]
            exact pair.step_cutWhile rfl here
          next word =>
            rw [if_neg word]
            refine pair.step_cutWhere ?_ here
            exact pair.blind_beginsMarkup.or (pair.blind_head _)

theorem TagPair.blind_endsTagText (pair : TagPair one other) : Blind one other endsTagText :=
  (pair.blind_pattern (by decide)).or (pair.blind_head _)

theorem tagStep_local (tags : LiteralTags) (literal : Option (List Char))
    (pair : TagPair one other)
    (here : tagStep tags literal first (part ++ one) = ⟨read, next, left ++ one⟩) :
    tagStep tags literal first (part ++ other) = ⟨read, next, left ++ other⟩ := by
  unfold tagStep at here ⊢
  have brace : '<' ∉ ['\x7b'] := by decide
  rw [templateOpening, pair.dropPrefix?_cons brace] at here
  rw [templateOpening, pair.symm.dropPrefix?_cons brace, ← pair.head?_append part]
  generalize dropPrefix? ['\x7b', '\x7b'] (first :: part) = template at here ⊢
  split at here
  next blank =>
    rw [if_pos blank]
    exact pair.step_cutWhile rfl here
  next solid =>
  rw [if_neg solid]
  split at here
  next name =>
    rw [if_pos name]
    exact pair.step_cutWhile rfl here
  next unnamed =>
  rw [if_neg unnamed]
  split at here
  next closing =>
    obtain ⟨slash, bracket⟩ := closing
    obtain ⟨more, rfl⟩ : ∃ more, part = '>' :: more := by
      cases part with
      | nil =>
        obtain ⟨_, _, rfl, _⟩ := pair.heads
        cases bracket
      | cons char part => exact ⟨part, congrArg (· :: part) (Option.some.inj bracket)⟩
    rw [if_pos ⟨slash, bracket⟩]
    exact step_eq_of_rest here
  next goes =>
  rw [if_neg goes]
  split at here
  next same => rw [if_pos same]; exact step_eq_of_rest here
  next stays =>
  rw [if_neg stays]
  split at here
  next same => rw [if_pos same]; exact step_eq_of_rest here
  next unequal =>
  rw [if_neg unequal]
  split at here
  next same => rw [if_pos same]; exact step_eq_of_rest here
  next undoubled =>
  rw [if_neg undoubled]
  split at here
  next same => rw [if_pos same]; exact step_eq_of_rest here
  next unquoted =>
  rw [if_neg unquoted]
  split at here
  next angle =>
    rw [if_pos angle]
    exact markupStep_local tags pair here
  next plain =>
  rw [if_neg plain]
  cases template with
  | some body => exact pair.step_template here
  | none => exact pair.step_cutWhere pair.blind_endsTagText here

theorem quotedStep_local (mark : QuoteMark) (literal : Option (List Char))
    (pair : TagPair one other)
    (here : quotedStep mark literal first (part ++ one) = ⟨read, next, left ++ one⟩) :
    quotedStep mark literal first (part ++ other) = ⟨read, next, left ++ other⟩ := by
  unfold quotedStep at here ⊢
  have brace : '<' ∉ ['\x7b'] := by decide
  rw [templateOpening, pair.dropPrefix?_cons brace] at here
  rw [templateOpening, pair.symm.dropPrefix?_cons brace]
  generalize dropPrefix? ['\x7b', '\x7b'] (first :: part) = template at here ⊢
  split at here
  next same =>
    rw [if_pos same]
    exact step_eq_of_rest here
  next differs =>
    rw [if_neg differs]
    cases template with
    | some body => exact pair.step_template here
    | none =>
      have braces : '<' ∉ ['\x7b', '\x7b'] := by decide
      refine pair.step_cutWhere ?_ here
      exact (pair.blind_pattern braces).or (pair.blind_head fun head => head = some mark.char)

/-- A tag behind a text closes a literal element of some name, or does not, whichever of two tags it
is. -/
structure TagPair.Agrees (one other : List Char) (mode : Mode) : Prop where
  name : ∀ name, mode = .literal name → '<' ∉ name
  closes : ∀ name, mode = .literal name → closesLiteral name one = closesLiteral name other

theorem literalStep_local (tags : LiteralTags) {name : List Char} (pair : TagPair one other)
    (agrees : TagPair.Agrees one other (.literal name))
    (here : literalStep tags name first (part ++ one) = ⟨read, next, left ++ one⟩) :
    literalStep tags name first (part ++ other) = ⟨read, next, left ++ other⟩ := by
  have blind := pair.blind_closesLiteral (agrees.name name rfl) (agrees.closes name rfl)
  have same : closesLiteral name (first :: (part ++ one)) =
      closesLiteral name (first :: (part ++ other)) := blind (first :: part)
  unfold literalStep at here ⊢
  rw [← same]
  split at here
  next closes =>
    rw [if_pos closes]
    exact markupStep_local tags pair here
  next goes =>
    rw [if_neg goes]
    exact pair.step_cutWhere blind here

/-- **A step that ends in front of a tag, or where it begins,** does not depend on the tag. -/
theorem step_local (tags : LiteralTags) (pair : TagPair one other) {mode : Mode}
    (agrees : TagPair.Agrees one other mode)
    (here : step tags mode first (part ++ one) = ⟨read, next, left ++ one⟩) :
    step tags mode first (part ++ other) = ⟨read, next, left ++ other⟩ := by
  cases mode with
  | markup => exact markupStep_local tags pair here
  | tag literal => exact tagStep_local tags literal pair here
  | quoted mark literal => exact quotedStep_local mark literal pair here
  | literal name => exact literalStep_local tags pair agrees here

end Steps

/-! ### All lexemes -/

/-- The name of a literal tag that the lexer keeps in a mode. -/
def Mode.kept : Mode → Option (List Char)
  | .markup => none
  | .tag kept => kept
  | .quoted _ kept => kept
  | .literal name => some name

/-- A name that the lexer may keep. -/
structure IsKept (tags : LiteralTags) (name : List Char) : Prop where
  proper : name.all isNameContinue = true
  literal : tags.contains (String.ofList name) = true

section Lexemes

variable {tags : LiteralTags}

theorem isKept_of_literalName? {chars name : List Char}
    (found : literalName? tags chars = some name) : IsKept tags name := by
  unfold literalName? at found
  simp only at found
  split at found
  next literal =>
    obtain rfl := Option.some.inj found
    exact ⟨List.all_takeWhile, literal⟩
  next => cases found

theorem IsKept.angle_notMem {name : List Char} (kept : IsKept tags name) : '<' ∉ name :=
  fun member => by cases List.all_eq_true.mp kept.proper '<' member

/-- A step between tags keeps no name but that of the tag it begins. -/
theorem BetweenTags.kept {chars : List Char} {step : Step} (between : BetweenTags tags chars step) :
    ∀ name ∈ step.mode.kept, IsKept tags name := by
  cases between with
  | opening => exact fun name found => isKept_of_literalName? found
  | comment | template | closing | text => exact fun name absurd => by cases absurd

/-- **The lexer keeps names of literal tags only.** -/
theorem Advances.kept {mode : Mode} {chars : List Char} {step : Step}
    (advances : Advances tags mode chars step) (known : ∀ name ∈ mode.kept, IsKept tags name) :
    ∀ name ∈ step.mode.kept, IsKept tags name := by
  cases advances with
  | markup between | bracket between | closeLiteral between => exact between.kept
  | word | template | equals | quote | unquote | quotedTemplate | quotedText => exact known
  | selfClose | body => exact fun name absurd => by cases absurd
  | @close literal =>
    cases literal with
    | none => exact fun name absurd => by cases absurd
    | some name => exact known

/-- The kinds of the lexemes with which tags begin. -/
def tagKinds : List TokenKind := [.openBracket, .closingOpenBracket]

/-- A step that reads the bracket of a tag reads nothing else. -/
theorem StepSort.eq_singleton {chars : List Char} {step : Step} {item : Lexeme}
    (sort : StepSort tags chars step) (member : item ∈ step.lexemes) (kind : item.1 ∈ tagKinds) :
    step.lexemes = [item] := by
  cases sort with
  | @template inner =>
    obtain ⟨_, _, _, _, same, _⟩ := templateLexemes_ends inner
    rw [same] at member
    have apart : ∀ kind ∈ .templateOpen :: templateKinds, kind ∉ tagKinds := by decide
    rcases List.mem_cons.mp member with rfl | member
    · exact absurd kind (by decide)
    · exact absurd kind (apart _ (List.mem_cons_of_mem _ (mem_templateKinds item member)))
  | comment inner =>
    have apart : ∀ kind ∈ commentKinds, kind ∉ tagKinds := by decide
    exact absurd kind (apart _ (mem_commentKinds inner item member))
  | opening => rw [List.mem_singleton.mp member]
  | other => rw [List.mem_singleton.mp member]

/-- Lexemes that are read in front of the bracket of a tag begin with all that the first step
reads. -/
theorem StepSort.exists_append {chars : List Char} {step : Step} (sort : StepSort tags chars step)
    {later read rest : List Lexeme} {item : Lexeme} (kind : item.1 ∈ tagKinds)
    (nonempty : read ≠ []) (cut : step.lexemes ++ later = read ++ item :: rest) :
    ∃ more, read = step.lexemes ++ more ∧ later = more ++ item :: rest := by
  rcases List.append_eq_append_iff.mp cut with ⟨tail, same, behind⟩ | ⟨tail, same, behind⟩
  · exact ⟨tail, same, behind⟩
  · cases tail with
    | nil => exact ⟨[], by simpa using same.symm, behind.symm⟩
    | cons head tail =>
      -- The bracket would be read in the step, and by then nothing else has been read.
      obtain ⟨rfl, _⟩ := List.cons.inj behind
      have inside : item ∈ step.lexemes := same ▸ List.mem_append_right read List.mem_cons_self
      have sole := same.symm.trans (sort.eq_singleton inside kind)
      cases read with
      | nil => exact absurd rfl nonempty
      | cons lexeme read => cases read <;> cases sole

/-- The lexemes in front of a place where nothing has been spelled yet. -/
theorem eq_nil_of_spelling {read : List Lexeme} (proper : ∀ lexeme ∈ read, IsProper lexeme)
    (empty : spelling read = []) : read = [] := by
  cases read with
  | nil => rfl
  | cons lexeme read =>
    rw [spelling_cons] at empty
    have nonempty := (proper lexeme List.mem_cons_self).nonempty
    exact absurd (List.append_eq_nil_iff.mp empty).1 nonempty

variable {one other : List Char}

/-- Two tags that close the same elements do so in every mode that keeps names of literal tags
only. -/
theorem TagPair.Agrees.of_isKept
    (agree : ∀ name, IsKept tags name → closesLiteral name one = closesLiteral name other)
    {mode : Mode} (known : ∀ name ∈ mode.kept, IsKept tags name) :
    TagPair.Agrees one other mode := by
  refine ⟨?_, ?_⟩
  · rintro name rfl
    exact (known name rfl).angle_notMem
  · rintro name rfl
    exact agree name (known name rfl)

/-- In front of the close tag of a literal element the lexer goes on between tags. -/
theorem lexemes_of_closesLiteral {name chars : List Char} (closes : closesLiteral name chars = true) :
    lexemes tags (.literal name) chars = lexemes tags .markup chars := by
  cases chars with
  | nil => cases closes
  | cons first rest =>
    have here : step tags (.literal name) first rest = step tags .markup first rest := by
      show literalStep tags name first rest = markupStep tags first rest
      unfold literalStep
      rw [if_pos closes]
    rw [lexemes, lexemes, here]

/-- Where the bracket of a tag is read, the lexer is between tags or in a tag. -/
theorem lexemes_at_tag (pair : TagPair one other) {mode : Mode}
    (agrees : TagPair.Agrees one other mode) {item : Lexeme} {rest : List Lexeme}
    (read : lexemes tags mode one = item :: rest) (kind : item.1 ∈ tagKinds) :
    ∃ stand, (stand = .markup ∨ ∃ literal, stand = .tag literal) ∧
      lexemes tags mode one = lexemes tags stand one ∧
      lexemes tags mode other = lexemes tags stand other := by
  obtain ⟨first, second, rfl, rfl⟩ := pair.heads
  have text : ∀ chars, (step tags mode '<' first).lexemes ≠ [(.textContent, chars)] := by
    intro chars same
    rw [lexemes, same] at read
    obtain ⟨rfl, _⟩ := List.cons.inj read
    simp [tagKinds] at kind
  cases mode with
  | markup => exact ⟨.markup, .inl rfl, rfl, rfl⟩
  | tag literal => exact ⟨.tag literal, .inr ⟨literal, rfl⟩, rfl, rfl⟩
  | quoted mark literal =>
    refine absurd ?_ (text ('<' :: (cutWhere
      (fun chars => templateOpening.isPrefixOf chars || chars.head? = some mark.char) first).1))
    cases mark <;> rfl
  | literal name =>
    have same := agrees.closes name rfl
    by_cases closes : closesLiteral name ('<' :: first) = true
    · exact ⟨.markup, .inl rfl, lexemes_of_closesLiteral closes,
        lexemes_of_closesLiteral (same ▸ closes)⟩
    · refine absurd ?_ (text ('<' :: (cutWhere (closesLiteral name) first).1))
      show (literalStep tags name '<' first).lexemes = _
      unfold literalStep
      rw [if_neg closes]

/-- **What is read up to a tag does not depend on the tag.** -/
theorem lexemes_local (pair : TagPair one other)
    (agree : ∀ name, IsKept tags name → closesLiteral name one = closesLiteral name other)
    {mode : Mode} (known : ∀ name ∈ mode.kept, IsKept tags name) {part : List Char}
    {read rest : List Lexeme} {item : Lexeme}
    (cut : lexemes tags mode (part ++ one) = read ++ item :: rest) (kind : item.1 ∈ tagKinds)
    (spelled : spelling read = part) :
    ∃ stand, (stand = .markup ∨ ∃ literal, stand = .tag literal) ∧
      lexemes tags stand one = item :: rest ∧
      lexemes tags mode (part ++ other) = read ++ lexemes tags stand other := by
  have proper := (lexemes_cut tags mode (part ++ one)).proper
  rw [cut] at proper
  -- The induction is on the text in front of the tag, step by step.
  induction size : part.length using Nat.strong_induction_on generalizing part mode read with
  | h count ih =>
    cases part with
    | nil =>
      obtain rfl := eq_nil_of_spelling (fun lexeme member =>
        proper lexeme (List.mem_append_left _ member)) spelled
      obtain ⟨stand, stands, first, second⟩ := lexemes_at_tag pair (.of_isKept agree known) cut kind
      exact ⟨stand, stands, first ▸ cut, second⟩
    | cons first part =>
      have whole := (step_cuts tags mode first (part ++ one)).whole
      have shorter := step_length_lt tags mode first (part ++ one)
      have sort := (step_advances tags mode first (part ++ one)).sort
      have kept := (step_advances tags mode first (part ++ one)).kept known
      rw [List.cons_append, lexemes] at cut
      generalize here : step tags mode first (part ++ one) = step at *
      obtain ⟨taken, next, left⟩ := step
      simp only at cut whole shorter kept
      obtain ⟨more, rfl, behind⟩ : ∃ more, read = taken ++ more ∧
          lexemes tags next left = more ++ item :: rest :=
        sort.exists_append kind (by rintro rfl; cases spelled) cut
      rw [spelling_append] at spelled
      obtain rfl : left = spelling more ++ one := by
        rw [← List.cons_append, ← spelled, List.append_assoc] at whole
        exact List.append_cancel_left whole
      have stepped : step tags mode first (part ++ other) = ⟨taken, next, spelling more ++ other⟩ :=
        step_local tags pair (.of_isKept agree known) here
      simp only [List.length_append, List.length_cons] at shorter size
      obtain ⟨stand, stands, tag, later⟩ := ih _ (by omega) kept behind rfl
        (fun lexeme member => proper lexeme (by simp at member ⊢; tauto)) rfl
      refine ⟨stand, stands, tag, ?_⟩
      rw [List.cons_append, lexemes_step stepped, later, List.append_assoc]

end Lexemes

end PromptMarkup.Markup
