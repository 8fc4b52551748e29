/-
**Words of expressions.**

A word with a space or nothing at all behind it is read as one token. So a text can be put together
from the kinds of the tokens that it is to have.

* `TokenKind.IsWord`: the word of a kind is read as a token of that kind;
* `isWord_mark`, `isWord_name`, `isWord_string`: punctuators, names and strings;
* `Front`: tokens of given kinds in front of others;
* `tokensFrom_spaced`, `tokenize_spelling`: the tokens of a text that is put together from words.
-/

import PromptMarkup.Expr.Printer

namespace PromptMarkup.Expr

open Text (isBlank)

/-! ### Words -/

/-- Behind the word of a token comes a space, or the text ends. -/
def EndsWord (after : List Char) : Prop := after = [] ∨ ∃ rest, after = ' ' :: rest

/-- The word of a kind is read as a token of that kind. -/
def TokenKind.IsWord (kind : TokenKind) : Prop :=
  ∃ first rest, kind.word = first :: rest ∧ isBlank first = false ∧
    ∀ after, EndsWord after → readToken first (rest ++ after) = .ok (kind, after)

/-- Every punctuator is a word. -/
theorem isWord_mark {mark : String} (listed : mark ∈ punctuators) :
    (TokenKind.mark mark).IsWord := by
  unfold punctuators at listed
  simp only [List.mem_cons, List.not_mem_nil, or_false] at listed
  rcases listed with rfl | rfl | rfl | rfl | rfl | rfl | rfl | rfl | rfl | rfl | rfl | rfl | rfl |
    rfl | rfl | rfl | rfl | rfl | rfl | rfl | rfl | rfl | rfl | rfl | rfl | rfl | rfl | rfl | rfl
  all_goals
    refine ⟨_, _, rfl, by decide, fun after ends => ?_⟩
    rcases ends with rfl | ⟨rest, rfl⟩ <;> rfl

/-! ### Names -/

/-- The code points of blanks and of the digits of the basic alphabet. -/
def foreignCodes : List Nat :=
  [0x09, 0x0A, 0x0B, 0x0C, 0x0D, 0x20, 0x85, 0xA0, 0x1680, 0x2000, 0x2001, 0x2002, 0x2003, 0x2004,
    0x2005, 0x2006, 0x2007, 0x2008, 0x2009, 0x200A, 0x2028, 0x2029, 0x202F, 0x205F, 0x3000,
    0x30, 0x31, 0x32, 0x33, 0x34, 0x35, 0x36, 0x37, 0x38, 0x39]

theorem not_mem_foreignCodes {char : Char} (start : isNameStart char = true) :
    char.toNat ∉ foreignCodes := by
  have none : ∀ code ∈ foreignCodes, isNameStart (Char.ofNat code) = false := by decide +kernel
  intro listed
  have other := none char.toNat listed
  rw [Char.ofNat_toNat, start] at other
  cases other

/-- No name begins with a blank. -/
theorem isBlank_of_isNameStart {char : Char} (start : isNameStart char = true) :
    isBlank char = false := by
  cases blank : isBlank char with
  | false => rfl
  | true =>
    refine absurd ?_ (not_mem_foreignCodes start)
    simp only [isBlank, Bool.or_eq_true, Bool.and_eq_true, decide_eq_true_eq] at blank
    simp only [foreignCodes, List.mem_cons, List.not_mem_nil, or_false]
    omega

/-- No name begins with a digit. -/
theorem isDigit_of_isNameStart {char : Char} (start : isNameStart char = true) :
    char.isDigit = false := by
  cases digit : char.isDigit with
  | false => rfl
  | true =>
    refine absurd ?_ (not_mem_foreignCodes start)
    have bounds : 48 ≤ char.toNat ∧ char.toNat ≤ 57 := by
      simpa [Char.isDigit, UInt32.le_iff_toNat_le] using digit
    simp only [foreignCodes, List.mem_cons, List.not_mem_nil, or_false]
    omega

/-- Characters that a class does not hold of are not in it. -/
theorem not_mem_of_class {holds : Char → Bool} {char : Char} (here : holds char = true)
    {others : List Char} (none : others.any holds = false) : char ∉ others := fun listed =>
  List.any_eq_false.mp none char listed here

/-- A name begins neither like a number nor like a string. -/
theorem others_of_isNameStart {char : Char} (start : isNameStart char = true) (rest : List Char) :
    startsNumber char rest = false ∧ isQuote char = false := by
  have none : ['.', '"', '\'', '\x60'].any isNameStart = false := by decide
  have differs := not_mem_of_class start none
  simp only [List.mem_cons, List.not_mem_nil, or_false, not_or] at differs
  obtain ⟨point, double, single, back⟩ := differs
  constructor
  · simp [startsNumber, isDigit_of_isNameStart start, point]
  · simp [isQuote, double, single, back]

/-- **Every name is a word.** -/
theorem isWord_name {text : String} (name : isName text = true) :
    (TokenKind.name text).IsWord := by
  unfold isName at name
  split at name
  next => cases name
  next first rest same =>
    obtain ⟨start, continues⟩ := (Bool.and_eq_true _ _).mp name
    refine ⟨first, rest, same, isBlank_of_isNameStart start, fun after ends => ?_⟩
    obtain ⟨number, quote⟩ := others_of_isNameStart start (rest ++ after)
    have stop : after.takeWhile isNameContinue = [] ∧ after.dropWhile isNameContinue = after := by
      rcases ends with rfl | ⟨behind, rfl⟩
      · exact ⟨rfl, rfl⟩
      · exact ⟨rfl, rfl⟩
    have each : ∀ char ∈ rest, isNameContinue char = true := List.all_eq_true.mp continues
    unfold readToken
    rw [if_neg (by rw [number]; decide), if_neg (by rw [quote]; decide), if_pos start]
    unfold Text.cutWhile
    rw [List.takeWhile_append_of_pos each, List.dropWhile_append_of_pos each, stop.1, stop.2,
      List.append_nil]
    simp only [← same, String.ofList_toList]

/-- A single letter is a word. -/
theorem isWord_letter : (TokenKind.name "a").IsWord := isWord_name (by decide)

/-! ### Strings -/

theorem readString?_escape (char : Char) (rest : List Char) :
    readString? '"' (escape char ++ rest) =
      (readString? '"' rest).map fun found => (char :: found.1, found.2) := by
  -- Behind a backslash everything but a code point is read alike.
  have escaped : ∀ letter, letter ≠ 'u' → readString? '"' ('\\' :: letter :: rest) =
      (readString? '"' rest).map fun found => (escapedChars letter ++ found.1, found.2) := by
    intro letter other
    rw [readString?, if_neg other]
    · cases readString? '"' rest <;> rfl
    · intro a b c d tail same
      exact absurd same other
  unfold escape
  split
  case h_7 noQuote noBackslash _ _ _ _ =>
    rw [List.singleton_append, readString?, if_neg noQuote, if_neg noBackslash]
    · cases readString? '"' rest <;> rfl
    · intro _ _ _ _ _ same
      exact absurd same noBackslash
    · intro _ _ same
      exact absurd same noBackslash
  all_goals exact escaped _ (by decide)

theorem readString?_escaped (text after : List Char) :
    readString? '"' (text.flatMap escape ++ '"' :: after) = some (text, after) := by
  induction text with
  | nil => rfl
  | cons char text ih =>
    rw [List.flatMap_cons, List.append_assoc, readString?_escape, ih]
    rfl

/-- **Every string is a word.** -/
theorem isWord_string (text : String) : (TokenKind.string text).IsWord := by
  refine ⟨'"', text.toList.flatMap escape ++ ['"'], rfl, by decide, fun after _ => ?_⟩
  unfold readToken
  rw [if_neg (show ¬startsNumber '"' _ = true from Bool.false_ne_true), if_pos (by decide),
    List.append_assoc, List.singleton_append, readString?_escaped]
  simp only [String.ofList_toList]

/-! ### Fronts -/

/-- Tokens of some kinds stand in front of others. -/
def Front : List TokenKind → List Token → List Token → Prop
  | [], tokens, rest => tokens = rest
  | kind :: kinds, tokens, rest =>
    ∃ span after, tokens = ⟨kind, span⟩ :: after ∧ Front kinds after rest

theorem front_append {first second : List TokenKind} {tokens rest : List Token} :
    Front (first ++ second) tokens rest ↔
      ∃ middle, Front first tokens middle ∧ Front second middle rest := by
  induction first generalizing tokens with
  | nil => simp [Front]
  | cons kind kinds ih =>
    constructor
    · rintro ⟨span, after, rfl, front⟩
      obtain ⟨middle, left, right⟩ := ih.mp front
      exact ⟨middle, ⟨span, after, rfl, left⟩, right⟩
    · rintro ⟨middle, ⟨span, after, rfl, left⟩, right⟩
      exact ⟨span, after, rfl, ih.mpr ⟨middle, left, right⟩⟩

theorem length_of_front {kinds : List TokenKind} {tokens rest : List Token}
    (front : Front kinds tokens rest) : tokens.length = kinds.length + rest.length := by
  induction kinds generalizing tokens with
  | nil =>
    obtain rfl : tokens = rest := front
    exact (Nat.zero_add _).symm
  | cons kind kinds ih =>
    obtain ⟨span, after, rfl, later⟩ := front
    rw [List.length_cons, List.length_cons, ih later]
    omega

/-! ### Texts -/

theorem tokensFrom_blank (offset : Nat) (rest : List Char) :
    tokensFrom offset (' ' :: rest) = tokensFrom (offset + 1) rest := by
  rw [tokensFrom, if_pos (by decide)]
  rfl

/-- The tokens of a text that begins with a word. -/
theorem tokensFrom_word {kind : TokenKind} (word : kind.IsWord) {after : List Char}
    (ends : EndsWord after) {kinds : List TokenKind}
    (later : ∀ offset, ∃ tokens stop, tokensFrom offset after = .ok tokens ∧
      Front kinds tokens [⟨.stop, stop⟩]) (offset : Nat) :
    ∃ tokens stop, tokensFrom offset (kind.word ++ after) = .ok tokens ∧
      Front (kind :: kinds) tokens [⟨.stop, stop⟩] := by
  obtain ⟨first, others, same, visible, read⟩ := word
  rw [same, List.cons_append, tokensFrom, if_neg (by rw [visible]; decide)]
  split
  next problem found =>
    rw [read after ends] at found
    cases found
  next other left found =>
    rw [read after ends] at found
    cases found
    obtain ⟨tokens, stop, text, front⟩ := later (offset +
      (Text.byteLength (first :: (others ++ after)) - Text.byteLength after))
    simp only [text]
    exact ⟨_, stop, rfl, _, tokens, rfl, front⟩

theorem spaced_cons_cons (kind second : TokenKind) (others : List TokenKind) :
    spaced (kind :: second :: others) = kind.word ++ ' ' :: spaced (second :: others) := by
  unfold spaced
  simp only [List.map_cons]
  rw [List.intercalate_cons_cons, List.append_assoc, List.singleton_append]

/-- **The tokens of words with spaces between them**, and perhaps one behind the last. -/
theorem tokensFrom_spaced {kinds : List TokenKind} (words : ∀ kind ∈ kinds, kind.IsWord)
    {ending : List Char} (blank : ending = [] ∨ ending = [' ']) (offset : Nat) :
    ∃ tokens stop, tokensFrom offset (spaced kinds ++ ending) = .ok tokens ∧
      Front kinds tokens [⟨.stop, stop⟩] := by
  have last : ∀ offset, ∃ tokens stop, tokensFrom offset ending = .ok tokens ∧
      Front [] tokens [⟨.stop, stop⟩] := by
    intro offset
    rcases blank with rfl | rfl
    · exact ⟨_, ⟨offset, offset⟩, by rw [tokensFrom], rfl⟩
    · exact ⟨_, ⟨offset + 1, offset + 1⟩, by rw [tokensFrom_blank, tokensFrom], rfl⟩
  induction kinds generalizing offset with
  | nil => exact last offset
  | cons kind kinds ih =>
    obtain ⟨word, later⟩ := List.forall_mem_cons.mp words
    cases kinds with
    | nil =>
      have ends : EndsWord ending := blank.imp id fun same => ⟨[], same⟩
      have text : spaced [kind] = kind.word := by simp [spaced, List.intercalate]
      rw [text]
      exact tokensFrom_word word ends last offset
    | cons second others =>
      rw [spaced_cons_cons, List.append_assoc, List.cons_append]
      refine tokensFrom_word word (.inr ⟨_, rfl⟩) (fun offset => ?_) offset
      rw [tokensFrom_blank]
      exact ih later (offset + 1)

/-- The text of some words, each with a space behind it. -/
def spelling (kinds : List TokenKind) : List Char := kinds.flatMap fun kind => kind.word ++ [' ']

theorem spelling_cons (kind : TokenKind) (kinds : List TokenKind) :
    spelling (kind :: kinds) = spaced (kind :: kinds) ++ [' '] := by
  induction kinds generalizing kind with
  | nil => simp [spelling, spaced, List.intercalate]
  | cons second others ih =>
    show kind.word ++ [' '] ++ spelling (second :: others) = _
    rw [ih, spaced_cons_cons]
    simp only [List.append_assoc, List.cons_append, List.nil_append]

/-- **The tokens of a text of words.** -/
theorem tokenize_spelling {kinds : List TokenKind} (words : ∀ kind ∈ kinds, kind.IsWord) :
    ∃ tokens stop, tokenize (String.ofList (spelling kinds)) = .ok tokens ∧
      Front kinds tokens [⟨.stop, stop⟩] := by
  unfold tokenize
  rw [String.toList_ofList]
  cases kinds with
  | nil => exact tokensFrom_spaced words (.inl rfl) 0
  | cons kind kinds =>
    rw [spelling_cons]
    exact tokensFrom_spaced words (.inr rfl) 0

end PromptMarkup.Expr
