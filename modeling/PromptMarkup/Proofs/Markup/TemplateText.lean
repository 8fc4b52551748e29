/-
**Expressions in templates.**

The lexer finds the end of a template by counting braces and passing over quotes, without reading
the expression. For an expression it stops at the mark behind it and nowhere else, since the braces
of an expression match and both scanners leave a string behind the same quote.

* `Passes`: the scanner goes on behind a text as it was in front of it;
* `readString?_passes`, `readToken_writes`: strings, and the texts of tokens;
* `Written`: a text that consists of tokens with blanks between them;
* `passes_of_parse`: the scanner passes over an expression;
* `templateLexemes_expression`: the lexemes of a template with an expression in it.
-/

import PromptMarkup.Proofs.Expr.Braces
import PromptMarkup.Proofs.Expr.TokenPlaces
import PromptMarkup.Proofs.Markup.Lexemes

namespace PromptMarkup.Markup

open Text
open PromptMarkup.Expr (Balanced readString? readToken tokensFrom cutNumber cutFraction cutExponent)

/-! ### Texts that are passed over -/

theorem cutExpression_opening (depth : Nat) (after : List Char) :
    cutExpression depth none ('\x7b' :: after) =
      ('\x7b' :: (cutExpression (depth + 1) none after).1,
        (cutExpression (depth + 1) none after).2) := by
  rw [cutExpression]
  · simp
  · exact fun next rest same => absurd same (by decide)

theorem cutExpression_closing (depth : Nat) (after : List Char) :
    cutExpression (depth + 1) none ('\x7d' :: after) =
      ('\x7d' :: (cutExpression depth none after).1, (cutExpression depth none after).2) := by
  rw [cutExpression]
  · simp
  · exact fun next rest same => absurd same (by decide)

/-- The scanner goes on behind a text as it was in front of it. -/
def Passes (text : List Char) : Prop :=
  ∀ depth after, cutExpression depth none (text ++ after) =
    (text ++ (cutExpression depth none after).1, (cutExpression depth none after).2)

/-- Characters that mean something to the scanner. -/
def isScanned (char : Char) : Bool :=
  char = '\x7b' || char = '\x7d' || Expr.isQuote char || char = '\\'

/-- The characters that are scanned. -/
def scannedChars : List Char := ['\x7b', '\x7d', '"', '\'', '\x60', '\\']

theorem isScanned_of_class (holds : Char → Bool) (none : scannedChars.any holds = false)
    {char : Char} (here : holds char = true) : isScanned char = false := by
  by_contra scanned
  have listed : char ∈ scannedChars := by
    simp only [isScanned, Expr.isQuote, Bool.not_eq_false, Bool.or_eq_true,
      decide_eq_true_eq] at scanned
    simp only [scannedChars, List.mem_cons, List.not_mem_nil, or_false]
    tauto
  have other := List.any_eq_false.mp none char listed
  exact other here

namespace Passes

variable {first second text : List Char}

theorem nil : Passes [] := fun _ _ => rfl

theorem append (left : Passes first) (right : Passes second) : Passes (first ++ second) := by
  intro depth after
  rw [List.append_assoc, left, right, List.append_assoc]

/-- A character that means nothing to the scanner. -/
theorem single {char : Char} (free : isScanned char = false) : Passes [char] := by
  intro depth after
  simp only [isScanned, Expr.isQuote, Bool.or_eq_false_iff, decide_eq_false_iff_not] at free
  obtain ⟨⟨⟨opening, closing⟩, ⟨double, single⟩, back⟩, slash⟩ := free
  rw [List.singleton_append, cutExpression]
  · simp [opening, closing, double, single, back]
  · exact fun next rest same => absurd same slash

theorem all (free : ∀ char ∈ text, isScanned char = false) : Passes text := by
  induction text with
  | nil => exact nil
  | cons first rest ih =>
    obtain ⟨here, later⟩ := List.forall_mem_cons.mp free
    exact append (single here) (ih later)

/-- Characters that mean nothing to the scanner. -/
theorem of_append (free : ∀ char ∈ first, isScanned char = false)
    (whole : Passes (first ++ second)) : Passes second := by
  intro depth after
  have both := whole depth after
  rw [List.append_assoc, all free, List.append_assoc, Prod.mk.injEq] at both
  exact Prod.ext (List.append_cancel_left both.1) both.2

/-- Braces around a text that is passed over. -/
theorem braces (inner : Passes text) : Passes ('\x7b' :: (text ++ ['\x7d'])) := by
  intro depth after
  have whole : '\x7b' :: (text ++ ['\x7d']) ++ after = '\x7b' :: (text ++ '\x7d' :: after) := by
    simp
  rw [whole, cutExpression_opening, inner, cutExpression_closing]
  simp

end Passes

/-! ### Strings -/

/-- The digits of a code point mean nothing to the scanner. -/
theorem isScanned_of_hexNumber? {chars : List Char} {code : Nat}
    (read : Expr.hexNumber? chars = some code) : ∀ char ∈ chars, isScanned char = false := by
  have digits : ∀ (start : Nat) (rest : List Char) (value : Nat),
      rest.foldlM (fun value digit => (Expr.hexDigit? digit).map (value * 16 + ·)) start =
        some value → ∀ char ∈ rest, isScanned char = false := by
    intro start rest value found
    induction rest generalizing start with
    | nil => exact fun _ member => by cases member
    | cons first rest ih =>
      rw [List.foldlM_cons, Option.bind_eq_bind, Option.bind_eq_some_iff] at found
      obtain ⟨next, here, later⟩ := found
      obtain ⟨digit, hex, _⟩ := Option.map_eq_some_iff.mp here
      refine List.forall_mem_cons.mpr ⟨?_, ih next later⟩
      have some : (Expr.hexDigit? first).isSome = true := by rw [hex]; rfl
      exact isScanned_of_class (fun char => (Expr.hexDigit? char).isSome) (by decide) some
  unfold Expr.hexNumber? at read
  simp only at read
  split at read
  next rest =>
    split at read
    · cases read
    · exact List.forall_mem_cons.mpr ⟨by decide, digits 0 rest code read⟩
  next =>
    split at read
    · cases read
    · exact digits 0 chars code read

theorem cutExpression_escape (depth : Nat) (quote next : Char) (after : List Char) :
    cutExpression depth (some quote) ('\\' :: next :: after) =
      ('\\' :: next :: (cutExpression depth (some quote) after).1,
        (cutExpression depth (some quote) after).2) := by
  rw [cutExpression]
  simp

theorem cutExpression_inside (depth : Nat) (quote : Char) {char : Char} (after : List Char)
    (other : char ≠ '\\') :
    cutExpression depth (some quote) (char :: after) =
      (char :: (cutExpression depth (if char = quote then none else some quote) after).1,
        (cutExpression depth (if char = quote then none else some quote) after).2) := by
  rw [cutExpression]
  exact fun next rest same => absurd same other

/-- A quote opens a string. -/
theorem cutExpression_quote (depth : Nat) {quote : Char} (isQuote : Expr.isQuote quote)
    (after : List Char) :
    cutExpression depth none (quote :: after) =
      (quote :: (cutExpression depth (some quote) after).1,
        (cutExpression depth (some quote) after).2) := by
  have slash : quote ≠ '\\' := by rintro rfl; cases isQuote
  have opening : quote ≠ '\x7b' := by rintro rfl; cases isQuote
  have closing : quote ≠ '\x7d' := by rintro rfl; cases isQuote
  have listed : quote = '"' ∨ quote = '\'' ∨ quote = '\x60' := by
    simpa [Expr.isQuote, or_assoc] using isQuote
  rw [cutExpression]
  · simp [opening, closing, listed]
  · exact fun next rest same => absurd same slash

/-- In a string a text is passed over that has neither its quote nor a backslash in it. -/
theorem cutExpression_free (depth : Nat) {quote : Char} (isQuote : Expr.isQuote quote)
    {text : List Char} (free : ∀ char ∈ text, isScanned char = false) (after : List Char) :
    cutExpression depth (some quote) (text ++ after) =
      (text ++ (cutExpression depth (some quote) after).1,
        (cutExpression depth (some quote) after).2) := by
  induction text with
  | nil => rfl
  | cons first rest ih =>
    obtain ⟨here, later⟩ := List.forall_mem_cons.mp free
    have slash : first ≠ '\\' := by rintro rfl; cases here
    have other : first ≠ quote := by rintro rfl; simp [isScanned, isQuote] at here
    rw [List.cons_append, cutExpression_inside depth quote _ slash, if_neg other, ih later]
    rfl

/-- **The scanner leaves a string behind the quote that the expression leaves it behind.** -/
theorem readString?_passes {quote : Char} (isQuote : Expr.isQuote quote)
    {chars value rest : List Char} (read : readString? quote chars = some (value, rest)) :
    ∃ body, chars = body ++ rest ∧ ∀ depth after,
      cutExpression depth (some quote) (body ++ after) =
        (body ++ (cutExpression depth none after).1, (cutExpression depth none after).2) := by
  fun_induction readString? quote chars generalizing value rest with
  | case1 => cases read
  | case2 a b c d tail ih =>
    simp only [Option.bind_eq_bind, Option.bind_eq_some_iff] at read
    obtain ⟨code, hex, ⟨inner, after⟩, found, same⟩ := read
    cases same
    obtain ⟨body, rfl, passes⟩ := ih found
    refine ⟨'\\' :: 'u' :: ([a, b, c, d] ++ body), rfl, fun depth after => ?_⟩
    have digits := cutExpression_free depth isQuote (isScanned_of_hexNumber? hex) (body ++ after)
    rw [List.cons_append, List.cons_append, cutExpression_escape, List.append_assoc, digits, passes]
    rfl
  | case3 => cases read
  | case4 escaped tail _ _ ih =>
    simp only [Option.bind_eq_bind, Option.bind_eq_some_iff] at read
    obtain ⟨⟨inner, after⟩, found, same⟩ := read
    cases same
    obtain ⟨body, rfl, passes⟩ := ih found
    refine ⟨'\\' :: escaped :: body, rfl, fun depth after => ?_⟩
    rw [List.cons_append, List.cons_append, cutExpression_escape, passes]
    rfl
  | case5 =>
    cases read
    have slash : quote ≠ '\\' := by rintro rfl; cases isQuote
    refine ⟨[quote], rfl, fun depth after => ?_⟩
    rw [List.singleton_append, cutExpression_inside depth quote after slash, if_pos rfl]
    rfl
  | case6 => cases read
  | case7 char tail _ _ other slash ih =>
    simp only [Option.bind_eq_bind, Option.bind_eq_some_iff] at read
    obtain ⟨⟨inner, after⟩, found, same⟩ := read
    cases same
    obtain ⟨body, rfl, passes⟩ := ih found
    refine ⟨char :: body, rfl, fun depth after => ?_⟩
    rw [List.cons_append, cutExpression_inside depth quote _ slash, if_neg other, passes]
    rfl

/-! ### Tokens -/

/-- Nothing is scanned in a text. -/
def IsFree (chars : List Char) : Prop := ∀ char ∈ chars, isScanned char = false

theorem isFree_nil : IsFree [] := fun _ member => by cases member

theorem IsFree.append {first second : List Char} (left : IsFree first) (right : IsFree second) :
    IsFree (first ++ second) := List.forall_mem_append.mpr ⟨left, right⟩

theorem isFree_cutWhile (keep : Char → Bool) (none : scannedChars.any keep = false)
    (chars : List Char) : IsFree (cutWhile keep chars).1 := fun _ member =>
  isScanned_of_class keep none (List.mem_takeWhile_imp member)

theorem isFree_cutFraction (chars : List Char) : IsFree (cutFraction chars).1 := by
  unfold cutFraction
  split
  next rest =>
    exact List.forall_mem_cons.mpr ⟨by decide, isFree_cutWhile Char.isDigit (by decide) rest⟩
  next => exact isFree_nil

theorem isScanned_of_letter {char : Char} (letter : char = 'e' ∨ char = 'E') :
    isScanned char = false := by
  rcases letter with rfl | rfl <;> decide

theorem isFree_cutExponent (chars : List Char) : IsFree (cutExponent chars).1 := by
  unfold cutExponent
  split
  next letter rest =>
    have sign : IsFree ((rest.take 1).filter fun char => char = '+' || char = '-') :=
      fun char member => isScanned_of_class (fun char => char = '+' || char = '-') (by decide)
        (List.mem_filter.mp member).2
    simp only
    split
    next exponent =>
      split
      next => exact isFree_nil
      next =>
        have digits := isFree_cutWhile Char.isDigit (by decide)
          (rest.drop ((rest.take 1).filter fun char => char = '+' || char = '-').length)
        exact List.forall_mem_cons.mpr ⟨isScanned_of_letter exponent, sign.append digits⟩
    next => exact isFree_nil
  next => exact isFree_nil

/-- The text of a number has nothing scanned in it. -/
theorem isFree_cutNumber (chars : List Char) : IsFree (cutNumber chars).1 := by
  unfold cutNumber
  simp only
  have whole := isFree_cutWhile (fun char => char.isDigit || char = '_') (by decide) chars
  exact (whole.append (isFree_cutFraction _)).append (isFree_cutExponent _)

/-- The text of a token: a brace stands for itself, and any other text is passed over. -/
def writes (kind : Expr.TokenKind) (text : List Char) : Prop :=
  (kind.isBrace = true → kind = .mark (String.ofList text)) ∧
    (kind.isBrace = false → Passes text)

theorem writes_of_passes {kind : Expr.TokenKind} {text : List Char} (plain : kind.isBrace = false)
    (passes : Passes text) : writes kind text :=
  ⟨fun brace => absurd brace (by rw [plain]; decide), fun _ => passes⟩

/-- Every punctuator but a brace has nothing scanned in it. -/
theorem isScanned_of_mem_punctuators {mark : String} (listed : mark ∈ Expr.punctuators)
    (plain : (Expr.TokenKind.mark mark).isBrace = false) :
    ∀ char ∈ mark.toList, isScanned char = false := by
  have free : ∀ mark ∈ Expr.punctuators, (Expr.TokenKind.mark mark).isBrace = false →
      mark.toList.any isScanned = false := by decide
  intro char member
  exact Bool.eq_false_iff.mpr (List.any_eq_false.mp (free mark listed plain) char member)

/-- **What is read as a token is the text of that token.** -/
theorem readToken_writes {first : Char} {rest after : List Char} {kind : Expr.TokenKind}
    (read : readToken first rest = .ok (kind, after)) :
    ∃ text, first :: rest = text ++ after ∧ writes kind text ∧ kind ≠ .stop := by
  cases Expr.reading_of_readToken read with
  | number =>
    exact ⟨_, (Expr.cutNumber_append (first :: rest)).symm,
      writes_of_passes rfl (.all (isFree_cutNumber _)), by simp⟩
  | string quote found =>
    obtain ⟨body, rfl, passes⟩ := readString?_passes quote found
    refine ⟨first :: body, rfl, writes_of_passes rfl fun depth after => ?_, by simp⟩
    rw [List.cons_append, cutExpression_quote depth quote, passes]
    rfl
  | name start =>
    have here := isScanned_of_class Expr.isNameStart (by decide) start
    have later := isFree_cutWhile Expr.isNameContinue (by decide) rest
    refine ⟨first :: (cutWhile Expr.isNameContinue rest).1, ?_,
      writes_of_passes rfl (.all (List.forall_mem_cons.mpr ⟨here, later⟩)), by simp⟩
    rw [List.cons_append, cutWhile_append]
  | @mark mark _ listed whole =>
    refine ⟨mark.toList, whole, ⟨fun _ => by rw [String.ofList_toList], fun plain => .all ?_⟩,
      by simp⟩
    exact isScanned_of_mem_punctuators listed plain

/-! ### Texts of tokens -/

/-- A text that consists of the texts of tokens, with blanks between them. -/
inductive Written : List Expr.TokenKind → List Char → Prop
  | nil : Written [] []
  | blank {kinds : List Expr.TokenKind} {char : Char} {chars : List Char} :
      isBlank char = true → Written kinds chars → Written kinds (char :: chars)
  | token {kind : Expr.TokenKind} {kinds : List Expr.TokenKind} {text chars : List Char} :
      writes kind text → Written kinds chars → Written (kind :: kinds) (text ++ chars)

theorem written_of_spread {offset : Nat} {chars : List Char} {tokens : List Expr.Token}
    (spread : Expr.Spread (fun kind text => writes kind text ∧ kind ≠ .stop) offset chars tokens) :
    Written (tokens.map Expr.Token.kind) chars := by
  induction spread with
  | nil => exact .nil
  | blank blank _ ih => exact .blank blank ih
  | token here _ ih => exact .token here.1 ih

/-- **A text without faults consists of its tokens**, and behind them comes the end. -/
theorem written_of_tokensFrom {offset : Nat} {chars : List Char} {tokens : List Expr.Token}
    (read : tokensFrom offset chars = .ok tokens) :
    ∃ front span, tokens = front ++ [⟨.stop, span⟩] ∧
      Written (front.map Expr.Token.kind) chars ∧ ∀ token ∈ front, token.kind ≠ .stop := by
  obtain ⟨front, whole, spread⟩ := Expr.spread_of_tokensFrom readToken_writes read
  refine ⟨front, _, whole, written_of_spread spread, fun token member => ?_⟩
  obtain ⟨_, _, _, _, here, _⟩ := spread.reads token member
  exact here.2

namespace Written

variable {kinds first second : List Expr.TokenKind} {kind : Expr.TokenKind} {chars : List Char}

/-- Blanks are passed over. -/
theorem passes_of_nil (written : Written [] chars) : Passes chars := by
  generalize none : ([] : List Expr.TokenKind) = kinds at written
  induction written with
  | nil => exact .nil
  | blank blank _ ih =>
    exact .append (.single (isScanned_of_class isBlank (by decide) blank)) (ih none)
  | token => cases none

/-- The text of the first tokens, and that of the others. -/
theorem split (written : Written (first ++ second) chars) :
    ∃ front back, chars = front ++ back ∧ Written first front ∧ Written second back := by
  generalize same : first ++ second = kinds at written
  induction written generalizing first with
  | nil =>
    obtain ⟨rfl, rfl⟩ := List.append_eq_nil_iff.mp same
    exact ⟨[], [], rfl, .nil, .nil⟩
  | blank blank _ ih =>
    obtain ⟨front, back, rfl, left, right⟩ := ih same
    exact ⟨_ :: front, back, rfl, .blank blank left, right⟩
  | @token kind kinds text chars writes tail ih =>
    cases first with
    | nil =>
      obtain rfl : second = kind :: kinds := same
      exact ⟨[], text ++ chars, rfl, .nil, .token writes tail⟩
    | cons other first =>
      obtain ⟨rfl, tail⟩ := List.cons.inj same
      obtain ⟨front, back, rfl, left, right⟩ := ih tail
      exact ⟨text ++ front, back, (List.append_assoc _ _ _).symm, .token writes left, right⟩

/-- The text of one token, with blanks around it. -/
theorem one (written : Written [kind] chars) :
    ∃ before text after, chars = before ++ (text ++ after) ∧ Passes before ∧ writes kind text ∧
      Passes after := by
  generalize same : [kind] = kinds at written
  induction written with
  | nil => cases same
  | @blank kinds char chars blank _ ih =>
    obtain ⟨before, text, after, rfl, left, here, right⟩ := ih same
    have free : Passes [char] := .single (isScanned_of_class isBlank (by decide) blank)
    exact ⟨char :: before, text, after, rfl, free.append left, here, right⟩
  | @token kind kinds text chars writes tail =>
    obtain ⟨rfl, rfl⟩ := List.cons.inj same
    exact ⟨[], text, chars, rfl, .nil, writes, tail.passes_of_nil⟩

/-- The text of a brace, with blanks around it. -/
theorem brace {mark : String} (brace : (Expr.TokenKind.mark mark).isBrace = true)
    (written : Written [.mark mark] chars) :
    ∃ before after, chars = before ++ (mark.toList ++ after) ∧ Passes before ∧ Passes after := by
  obtain ⟨before, text, after, rfl, left, writes, right⟩ := written.one
  have same : mark = String.ofList text := Expr.TokenKind.mark.inj (writes.1 brace)
  exact ⟨before, after, by rw [same, String.toList_ofList], left, right⟩

/-- **The text of balanced tokens is passed over.** -/
theorem passes (written : Written kinds chars) (balanced : Balanced kinds) : Passes chars := by
  induction balanced generalizing chars with
  | nil => exact written.passes_of_nil
  | single kind plain =>
    obtain ⟨before, text, after, rfl, left, writes, right⟩ := written.one
    exact left.append ((writes.2 plain).append right)
  | append first second _ _ left right =>
    obtain ⟨front, back, rfl, before, behind⟩ := written.split
    exact (left before).append (right behind)
  | braces inner _ ih =>
    obtain ⟨front, back, rfl, opening, inside⟩ : ∃ front back, chars = front ++ back ∧
        Written [.mark "\x7b"] front ∧ Written (inner ++ [.mark "\x7d"]) back := split written
    obtain ⟨middle, last, rfl, nested, closing⟩ := inside.split
    obtain ⟨before, opened, rfl, left, leading⟩ := brace (by decide) opening
    obtain ⟨close, after, rfl, trailing, right⟩ := brace (by decide) closing
    have inside := Passes.braces ((leading.append (ih nested)).append trailing)
    have whole := left.append (inside.append right)
    simpa using whole

end Written

/-! ### Expressions -/

/-- **The scanner passes over an expression.** -/
theorem passes_of_parse {source : String} {expr : Expr} (parsed : Expr.parse source = .ok expr) :
    Passes source.toList := by
  obtain ⟨tokens, span, rest, read, front, whole, balanced⟩ := Expr.balanced_of_parse parsed
  obtain ⟨all, last, same, written, inner⟩ := written_of_tokensFrom read
  -- The end comes last, so that the balanced tokens are all those in front of it.
  have every : front = all := by
    rcases List.append_eq_append_iff.mp (same.symm.trans whole) with
      ⟨more, rfl, tail⟩ | ⟨more, rfl, tail⟩
    · cases more with
      | nil => simp
      | cons token more => simp at tail
    · cases more with
      | nil => simp
      | cons token more =>
        obtain ⟨rfl, _⟩ := List.cons.inj tail
        exact absurd rfl (inner _ (List.mem_append_right _ List.mem_cons_self))
  exact written.passes (every ▸ balanced)

/-- Blanks only have no tokens but the end. -/
theorem tokensFrom_blank {chars : List Char} (blank : ∀ char ∈ chars, isBlank char = true)
    (offset : Nat) : ∃ span, tokensFrom offset chars = .ok [⟨.stop, span⟩] := by
  induction chars generalizing offset with
  | nil => exact ⟨_, by rw [tokensFrom]⟩
  | cons first rest ih =>
    obtain ⟨here, later⟩ := List.forall_mem_cons.mp blank
    rw [tokensFrom, if_pos here]
    exact ih later _

/-- An expression is not made of blanks only. -/
theorem exists_not_blank_of_parse {source : String} {expr : Expr}
    (parsed : Expr.parse source = .ok expr) : ∃ char ∈ source.toList, isBlank char = false := by
  by_contra none
  have blank : ∀ char ∈ source.toList, isBlank char = true := by simpa using none
  obtain ⟨span, stop⟩ := tokensFrom_blank blank 0
  have nothing : (Expr.parseExpr Expr.depthLimit [⟨.stop, span⟩]).isOk = false := by cbv
  unfold Expr.parse Expr.tokenize at parsed
  rw [stop] at parsed
  cases outcome : Expr.parseExpr Expr.depthLimit [⟨.stop, span⟩] with
  | error fault => simp [outcome, bind, Except.bind] at parsed
  | ok pair =>
    rw [outcome] at nothing
    cases nothing

theorem toList_ne_nil_of_parse {source : String} {expr : Expr}
    (parsed : Expr.parse source = .ok expr) : source.toList ≠ [] := by
  obtain ⟨char, member, _⟩ := exists_not_blank_of_parse parsed
  exact List.ne_nil_of_mem member

/-- The scanner stops at the mark that closes a template. -/
theorem cutExpression_stop (rest : List Char) :
    cutExpression 0 none (templateClosing ++ rest) = ([], templateClosing ++ rest) := by
  show cutExpression 0 none ('\x7d' :: '\x7d' :: rest) = _
  rw [cutExpression]
  · rfl
  · exact fun next rest same => absurd same (by decide)

/-- A text with a blank at neither end. -/
structure IsTrimmed (chars : List Char) : Prop where
  nonempty : chars ≠ []
  first : ∀ char ∈ chars.head?, isMarkupBlank char = false
  last : ∀ char ∈ chars.getLast?, isMarkupBlank char = false

/-- Blanks in front of a text are all that is cut off it. -/
theorem IsTrimmed.cutWhile_blank {chars : List Char} (trimmed : IsTrimmed chars)
    {blanks : List Char} (blank : ∀ char ∈ blanks, isMarkupBlank char = true) (rest : List Char) :
    cutWhile isMarkupBlank (blanks ++ (chars ++ rest)) = (blanks, chars ++ rest) := by
  obtain ⟨first, others, rfl⟩ := List.exists_cons_of_ne_nil trimmed.nonempty
  exact cutWhile_of_all blanks blank trimmed.first

/-- Blanks behind a text are all that is trimmed off it. -/
theorem IsTrimmed.trimEndBy_blank {chars : List Char} (trimmed : IsTrimmed chars)
    {blanks : List Char} (blank : ∀ char ∈ blanks, isMarkupBlank char = true) :
    trimEndBy isMarkupBlank (chars ++ blanks) = chars := by
  unfold trimEndBy
  have backwards : ∀ char ∈ blanks.reverse, isMarkupBlank char = true := fun char member =>
    blank char (List.mem_reverse.mp member)
  rw [List.reverse_append, List.dropWhile_append_of_pos backwards]
  obtain ⟨last, others, same⟩ :=
    List.exists_cons_of_ne_nil (List.reverse_ne_nil_iff.mpr trimmed.nonempty)
  have here := trimmed.last last (by rw [← List.head?_reverse, same]; rfl)
  rw [same, List.dropWhile_cons, here, if_neg Bool.false_ne_true, ← same, List.reverse_reverse]

/-- **The lexemes of a template** that is closed directly behind its expression, or behind blanks:
the expression is one of them. -/
theorem templateLexemes_expression {before body after : List Char} (trimmed : IsTrimmed body)
    (passes : Passes (body ++ after)) (leading : ∀ char ∈ before, isMarkupBlank char = true)
    (trailing : ∀ char ∈ after, isMarkupBlank char = true) (rest : List Char) :
    templateLexemes (before ++ (body ++ (after ++ (templateClosing ++ rest)))) =
      ((.templateOpen, templateOpening) :: lexeme .whitespace before ++ [(.textContent, body)]
        ++ lexeme .whitespace after ++ [(.templateClose, templateClosing)], rest) := by
  have cut : cutExpression 0 none (body ++ (after ++ (templateClosing ++ rest))) =
      (body ++ after, templateClosing ++ rest) := by
    rw [← List.append_assoc, passes, cutExpression_stop, List.append_nil]
  unfold templateLexemes
  simp only [trimmed.cutWhile_blank leading, cut, trimmed.trimEndBy_blank trailing,
    List.drop_left]
  have closes : dropPrefix? templateClosing (templateClosing ++ rest) = some rest := by
    simp [templateClosing, dropPrefix?]
  have text : lexeme .textContent body = [(.textContent, body)] :=
    if_neg (by simpa using trimmed.nonempty)
  rw [closes, text]

end PromptMarkup.Markup
