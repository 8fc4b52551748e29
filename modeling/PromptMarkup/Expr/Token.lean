/-
**Tokens of expressions.**

* `Expr.TokenKind`: numbers, strings, names, punctuators and the end;
* `Expr.tokenize`: the tokens of a text, or the first fault in it.
-/

import PromptMarkup.Decimal.Reader
import PromptMarkup.Expr.Error
import PromptMarkup.Source.Span
import PromptMarkup.Text.Blank
import PromptMarkup.Text.Cut
import PromptMarkup.Text.Letters

namespace PromptMarkup.Expr

open Text

/-- What a token is. -/
inductive TokenKind where
  | number (value : Float)
  | string (value : String)
  | name (text : String)
  | mark (text : String)
  /-- The end of the text. -/
  | stop

/-- A token and its range. -/
structure Token where
  kind : TokenKind
  span : Span

/-- The punctuators; a longer one comes before those it begins with. -/
def punctuators : List String :=
  ["===", "!==", "...", "==", "!=", "<=", ">=", "&&", "||", "??", "?.", "+", "-", "*", "/", "%",
    "<", ">", "!", "?", ":", ".", ",", "(", ")", "[", "]", "\x7b", "\x7d"]

/-- The characters that begin a name. -/
def isNameStart (char : Char) : Bool := isAlphabetic char || char = '_' || char = '$'

/-- The characters that continue a name. -/
def isNameContinue (char : Char) : Bool := isAlphanumeric char || char = '_' || char = '$'

/-! ## Numbers -/

/-- The exponent of a number with its letter, if digits follow it, and the text behind it. -/
def cutExponent (chars : List Char) : List Char × List Char :=
  match chars with
  | letter :: rest =>
    if letter = 'e' ∨ letter = 'E' then
      let sign := rest.take 1 |>.filter fun char => char = '+' || char = '-'
      let (digits, after) := cutWhile Char.isDigit (rest.drop sign.length)
      if digits.isEmpty then ([], chars) else (letter :: sign ++ digits, after)
    else ([], chars)
  | [] => ([], [])

/-- The fraction of a number with its point, and the text behind it. -/
def cutFraction (chars : List Char) : List Char × List Char :=
  match chars with
  | '.' :: rest =>
    let (digits, after) := cutWhile Char.isDigit rest
    ('.' :: digits, after)
  | _ => ([], chars)

/-- The text of a number and the text behind it. Underscores may stand between the digits of its
whole part. -/
def cutNumber (chars : List Char) : List Char × List Char :=
  let (whole, rest) := cutWhile (fun char => char.isDigit || char = '_') chars
  let (fraction, rest) := cutFraction rest
  let (exponent, rest) := cutExponent rest
  (whole ++ fraction ++ exponent, rest)

/-- The float that the text of a number denotes. -/
def numberValue? (chars : List Char) : Option Float :=
  Decimal.readFloat? (chars.filter fun char => char ≠ '_')

/-! ## Strings -/

/-- The value of a hexadecimal digit. -/
def hexDigit? (char : Char) : Option Nat :=
  if char.isDigit then some (char.toNat - '0'.toNat)
  else if 'a' ≤ char.toLower ∧ char.toLower ≤ 'f' then some (char.toLower.toNat - 'a'.toNat + 10)
  else none

/-- The value of hexadecimal digits, of which there is at least one. A plus sign may stand in
front. -/
def hexNumber? (chars : List Char) : Option Nat :=
  let digits := match chars with
    | '+' :: rest => rest
    | _ => chars
  if digits.isEmpty then none
  else digits.foldlM (fun value digit => (hexDigit? digit).map (value * 16 + ·)) 0

/-- The character of a code point; the replacement character when there is none. -/
def charOfCode (code : Nat) : Char :=
  if code.isValidChar then Char.ofNat code else '\uFFFD'

/-- The characters that a letter behind a backslash stands for; a line feed stands for nothing. -/
def escapedChars : Char → List Char
  | 'n' => ['\n']
  | 't' => ['\t']
  | 'r' => ['\r']
  | '0' => ['\x00']
  | '\n' => []
  | other => [other]

/-- The characters of a string up to its closing quote, and the text behind it; none when the quote
is missing or a code point is malformed. -/
def readString? (quote : Char) : List Char → Option (List Char × List Char)
  | [] => none
  | '\\' :: 'u' :: a :: b :: c :: d :: rest => do
    let code ← hexNumber? [a, b, c, d]
    let (value, rest) ← readString? quote rest
    return (charOfCode code :: value, rest)
  | '\\' :: escaped :: rest =>
    if escaped = 'u' then none
    else do
      let (value, rest) ← readString? quote rest
      return (escapedChars escaped ++ value, rest)
  | char :: rest =>
    if char = quote then some ([], rest)
    else if char = '\\' then none
    else do
      let (value, rest) ← readString? quote rest
      return (char :: value, rest)

/-! ## Tokens -/

/-- The quotes that strings stand between. -/
def isQuote (char : Char) : Bool := char = '"' || char = '\'' || char = '\x60'

/-- Text that starts with `first` starts with a number. -/
def startsNumber (first : Char) (rest : List Char) : Bool :=
  first.isDigit || (first = '.' && rest.head?.any Char.isDigit)

/-- The punctuator that a text starts with. A question mark in front of a fraction is not taken for
an optional access. -/
def punctuator? (chars : List Char) : Option String :=
  match punctuators.find? fun mark => mark.toList.isPrefixOf chars with
  | some "?." => if (chars[2]?).any Char.isDigit then some "?" else some "?."
  | other => other

/-- The token that a text starts with, which is no blank, and the text behind it. -/
def readToken (first : Char) (rest : List Char) : Except SyntaxProblem (TokenKind × List Char) :=
  if startsNumber first rest then
    let (digits, after) := cutNumber (first :: rest)
    match numberValue? digits with
    | some value => .ok (.number value, after)
    | none =>
      let word := (cutWhile (fun char => !isBlank char) (first :: rest)).1
      .error (.invalidNumber (String.ofList word))
  else if isQuote first then
    match readString? first rest with
    | some (value, after) => .ok (.string (String.ofList value), after)
    | none => .error .unterminatedString
  else if isNameStart first then
    let (letters, after) := cutWhile isNameContinue rest
    .ok (.name (String.ofList (first :: letters)), after)
  else
    match punctuator? (first :: rest) with
    | some mark => .ok (.mark mark, rest.drop (mark.length - 1))
    | none => .error (.unexpectedCharacter first)

/-! ## Progress -/

theorem length_readString?_le {quote : Char} {chars value rest : List Char}
    (read : readString? quote chars = some (value, rest)) : rest.length ≤ chars.length := by
  fun_induction readString? quote chars generalizing value rest with
  | case1 => simp at read
  | case2 a b c d tail ih =>
    simp only [Option.bind_eq_bind, Option.bind_eq_some_iff] at read
    obtain ⟨code, _, ⟨inner, after⟩, found, same⟩ := read
    cases same
    have := ih found
    simp only [List.length_cons]
    omega
  | case3 => cases read
  | case4 escaped tail _ _ ih =>
    simp only [Option.bind_eq_bind, Option.bind_eq_some_iff] at read
    obtain ⟨⟨inner, after⟩, found, same⟩ := read
    cases same
    have := ih found
    simp only [List.length_cons]
    omega
  | case5 => cases read; simp
  | case6 => cases read
  | case7 char tail _ _ _ _ ih =>
    simp only [Option.bind_eq_bind, Option.bind_eq_some_iff] at read
    obtain ⟨⟨inner, after⟩, found, same⟩ := read
    cases same
    have := ih found
    simp only [List.length_cons]
    omega

theorem length_cutFraction_le (chars : List Char) :
    (cutFraction chars).2.length ≤ chars.length := by
  unfold cutFraction
  split
  next rest => exact Nat.le_succ_of_le (length_cutWhile_le _ rest)
  next => exact Nat.le_refl _

theorem length_cutExponent_le (chars : List Char) :
    (cutExponent chars).2.length ≤ chars.length := by
  unfold cutExponent
  split
  next letter rest =>
    split
    · simp only
      split
      · exact Nat.le_refl _
      · refine Nat.le_succ_of_le (Nat.le_trans (length_cutWhile_le _ _) ?_)
        simp
    · exact Nat.le_refl _
  next => exact Nat.le_refl _

theorem length_cutNumber_lt {first : Char} {rest : List Char}
    (starts : startsNumber first rest = true) :
    (cutNumber (first :: rest)).2.length < (first :: rest).length := by
  let keep := fun char : Char => char.isDigit || char = '_'
  have exponent := length_cutExponent_le (cutFraction (cutWhile keep (first :: rest)).2).2
  refine Nat.lt_of_le_of_lt exponent ?_
  by_cases digit : keep first
  · refine Nat.lt_of_le_of_lt (length_cutFraction_le _) ?_
    have := length_cutWhile_le keep rest
    simp only [cutWhile, List.dropWhile_cons, digit, if_true, List.length_cons] at *
    omega
  · have point : first = '.' := by
      simp only [startsNumber, Bool.or_eq_true, Bool.and_eq_true, decide_eq_true_eq] at starts
      rcases starts with isDigit | ⟨same, _⟩
      · exact absurd (by simp [keep, isDigit]) digit
      · exact same
    subst point
    have whole : (cutWhile keep ('.' :: rest)).2 = '.' :: rest := by
      simp only [cutWhile, List.dropWhile_cons, digit]
      rfl
    rw [whole]
    exact Nat.lt_succ_of_le (length_cutWhile_le _ rest)

/-- Reading a token takes at least one character. -/
theorem length_readToken_lt {first : Char} {rest after : List Char} {kind : TokenKind}
    (read : readToken first rest = .ok (kind, after)) :
    after.length < (first :: rest).length := by
  unfold readToken at read
  split at read
  next starts =>
    have := length_cutNumber_lt starts
    simp only at read
    split at read
    · cases read; exact this
    · cases read
  next =>
    split at read
    next =>
      split at read
      next value tail found =>
        cases read
        exact Nat.lt_succ_of_le (length_readString?_le found)
      next => cases read
    next =>
      split at read
      next =>
        cases read
        exact Nat.lt_succ_of_le (length_cutWhile_le _ rest)
      next =>
        split at read
        next =>
          cases read
          simp only [List.length_drop, List.length_cons]
          omega
        next => cases read

/-! ## All tokens -/

/-- The tokens of a text that starts at an offset, the end among them. -/
def tokensFrom (offset : Nat) (chars : List Char) : Except ExprError (List Token) :=
  match chars with
  | [] => .ok [⟨.stop, ⟨offset, offset⟩⟩]
  | first :: rest =>
    if isBlank first then tokensFrom (offset + first.utf8Size) rest
    else
      match _read : readToken first rest with
      | .error problem => .error (.malformed problem offset)
      | .ok (kind, after) =>
        let stop := offset + (byteLength (first :: rest) - byteLength after)
        (tokensFrom stop after).map (⟨kind, ⟨offset, stop⟩⟩ :: ·)
termination_by chars.length
decreasing_by
  · simp
  · exact length_readToken_lt _read

/-- The tokens of a text. -/
def tokenize (source : String) : Except ExprError (List Token) := tokensFrom 0 source.toList

end PromptMarkup.Expr
