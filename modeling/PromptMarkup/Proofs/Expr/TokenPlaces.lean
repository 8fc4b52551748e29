/-
**Where the tokens of an expression stand.**

Numbers, strings, names and punctuators are read by readers of their own. Each takes some text off
the front, at least one character of it, and leaves the rest as it was. So the tokens of a text
stand in it one behind the other, and what belongs to none of them is blank.

* `cutNumber_append`, `readString?_append`, `punctuator?_eq`: what is taken off the front;
* `Reading`, `reading_of_readToken`: all that a text can start with;
* `readToken_cut`: a token is read off the front of a text;
* `Spread`: tokens that stand in a text with blanks between them;
* `spread_of_tokensFrom`, `fault_of_tokensFrom`: the tokens of a text, and the place of a fault;
* `tokenize_spread`: the tokens of a source, or the fault in it.
-/

import PromptMarkup.Expr.Token
import PromptMarkup.Proofs.Source.Reading

namespace PromptMarkup.Expr

open Text

/-! ### Readers -/

theorem cutFraction_append (chars : List Char) :
    (cutFraction chars).1 ++ (cutFraction chars).2 = chars := by
  unfold cutFraction
  split
  next rest => exact congrArg ('.' :: ·) (cutWhile_append Char.isDigit rest)
  next => rfl

/-- The sign of an exponent, if there is one, stands in front. -/
theorem sign_append (chars : List Char) :
    let sign := (chars.take 1).filter fun char => char = '+' || char = '-'
    sign ++ chars.drop sign.length = chars := by
  cases chars with
  | nil => rfl
  | cons first rest =>
    simp only [List.take_succ_cons, List.take_zero, List.filter_cons, List.filter_nil]
    split <;> rfl

/-- An exponent that is given up leaves everything behind. -/
theorem cutExponent_append (chars : List Char) :
    (cutExponent chars).1 ++ (cutExponent chars).2 = chars := by
  unfold cutExponent
  split
  next letter rest =>
    have sign := sign_append rest
    simp only at sign ⊢
    split
    next =>
      split
      next => rfl
      next =>
        rw [List.cons_append, List.cons_append, List.append_assoc, cutWhile_append, sign]
    next => rfl
  next => rfl

theorem cutNumber_append (chars : List Char) :
    (cutNumber chars).1 ++ (cutNumber chars).2 = chars := by
  unfold cutNumber
  simp only
  rw [List.append_assoc, List.append_assoc, cutExponent_append, cutFraction_append,
    cutWhile_append]

/-- A string is read off the front, up to its quote. -/
theorem readString?_append {quote : Char} {chars value rest : List Char}
    (read : readString? quote chars = some (value, rest)) : ∃ body, chars = body ++ rest := by
  fun_induction readString? quote chars generalizing value rest with
  | case1 => cases read
  | case2 a b c d tail ih =>
    simp only [Option.bind_eq_bind, Option.bind_eq_some_iff] at read
    obtain ⟨code, _, ⟨inner, after⟩, found, same⟩ := read
    cases same
    obtain ⟨body, rfl⟩ := ih found
    exact ⟨'\\' :: 'u' :: a :: b :: c :: d :: body, rfl⟩
  | case3 => cases read
  | case4 escaped tail _ _ ih =>
    simp only [Option.bind_eq_bind, Option.bind_eq_some_iff] at read
    obtain ⟨⟨inner, after⟩, found, same⟩ := read
    cases same
    obtain ⟨body, rfl⟩ := ih found
    exact ⟨'\\' :: escaped :: body, rfl⟩
  | case5 => cases read; exact ⟨[_], rfl⟩
  | case6 => cases read
  | case7 char tail _ _ _ _ ih =>
    simp only [Option.bind_eq_bind, Option.bind_eq_some_iff] at read
    obtain ⟨⟨inner, after⟩, found, same⟩ := read
    cases same
    obtain ⟨body, rfl⟩ := ih found
    exact ⟨char :: body, rfl⟩

/-- The punctuator that a text starts with. -/
theorem punctuator?_eq {chars : List Char} {mark : String}
    (found : punctuator? chars = some mark) : mark ∈ punctuators ∧ mark.toList <+: chars := by
  have longest : ∀ {mark : String},
      (punctuators.find? fun mark => mark.toList.isPrefixOf chars) = some mark →
        mark ∈ punctuators ∧ mark.toList <+: chars := fun here =>
    ⟨List.mem_of_find?_eq_some here,
      List.isPrefixOf_iff_prefix.mp (List.find?_some here : _)⟩
  unfold punctuator? at found
  split at found
  next access =>
    have optional := (longest access).2
    split at found <;> cases found
    · exact ⟨by decide, List.IsPrefix.trans ⟨['.'], rfl⟩ optional⟩
    · exact ⟨by decide, optional⟩
  next => exact longest found

theorem toList_ne_nil : ∀ mark ∈ punctuators, mark.toList ≠ [] := by decide

/-! ### Readings -/

/-- What a text can start with: a token, with the text that is left behind it. -/
inductive Reading (first : Char) (rest : List Char) : TokenKind → List Char → Prop
  | number {value : Float} : startsNumber first rest = true →
      numberValue? (cutNumber (first :: rest)).1 = some value →
      Reading first rest (.number value) (cutNumber (first :: rest)).2
  | string {value after : List Char} : isQuote first = true →
      readString? first rest = some (value, after) →
      Reading first rest (.string (String.ofList value)) after
  | name : isNameStart first = true →
      Reading first rest (.name (String.ofList (first :: (cutWhile isNameContinue rest).1)))
        (cutWhile isNameContinue rest).2
  | mark {mark : String} {after : List Char} : mark ∈ punctuators →
      first :: rest = mark.toList ++ after → Reading first rest (.mark mark) after

theorem reading_of_readToken {first : Char} {rest after : List Char} {kind : TokenKind}
    (read : readToken first rest = .ok (kind, after)) : Reading first rest kind after := by
  unfold readToken at read
  split at read
  next starts =>
    simp only at read
    split at read <;> cases read
    next denotes => exact .number starts denotes
  next =>
    split at read
    next quote =>
      split at read <;> cases read
      next found => exact .string quote found
    next =>
      split at read
      next start => cases read; exact .name start
      next =>
        split at read <;> cases read
        next mark found =>
          obtain ⟨listed, after, whole⟩ := punctuator?_eq found
          obtain ⟨letter, letters, same⟩ := List.exists_cons_of_ne_nil (toList_ne_nil mark listed)
          have size : mark.length - 1 = letters.length := by
            rw [← String.length_toList, same, List.length_cons, Nat.add_sub_cancel]
          rw [same, List.cons_append, List.cons.injEq] at whole
          obtain ⟨rfl, rfl⟩ := whole
          refine .mark listed ?_
          rw [size, List.drop_left, same, List.cons_append]

/-- A token that is not the end can have a text: some text, and a punctuator has its own. -/
structure TokenKind.IsText (kind : TokenKind) (text : List Char) : Prop where
  nonempty : text ≠ []
  inner : kind ≠ .stop
  fixed : ∀ mark, kind = .mark mark → text = mark.toList

/-- **A token is read off the front**, and leaves the rest as it was. -/
theorem readToken_cut {first : Char} {rest after : List Char} {kind : TokenKind}
    (read : readToken first rest = .ok (kind, after)) :
    ∃ text, first :: rest = text ++ after ∧ kind.IsText text := by
  have shorter := length_readToken_lt read
  have solid : ∀ {text}, first :: rest = text ++ after → text ≠ [] := by
    rintro text whole rfl
    rw [whole] at shorter
    exact Nat.lt_irrefl _ shorter
  cases reading_of_readToken read with
  | number =>
    have whole := (cutNumber_append (first :: rest)).symm
    exact ⟨_, whole, solid whole, by simp, by simp⟩
  | string _ found =>
    obtain ⟨body, rfl⟩ := readString?_append found
    exact ⟨first :: body, rfl, List.cons_ne_nil _ _, by simp, by simp⟩
  | name _ =>
    refine ⟨first :: (cutWhile isNameContinue rest).1, ?_, List.cons_ne_nil _ _, by simp, by simp⟩
    rw [List.cons_append, cutWhile_append]
  | @mark mark _ _ whole =>
    refine ⟨mark.toList, whole, solid whole, by simp, fun other same => ?_⟩
    cases same
    rfl

/-! ### Tokens in a text -/

/-- Tokens that stand in a text from an offset on, one behind the other with blanks between them.
Each has a text that it can have. -/
inductive Spread (isText : TokenKind → List Char → Prop) : Nat → List Char → List Token → Prop
  | nil (offset : Nat) : Spread isText offset [] []
  | blank {offset : Nat} {char : Char} {rest : List Char} {tokens : List Token} :
      isBlank char = true → Spread isText (offset + char.utf8Size) rest tokens →
      Spread isText offset (char :: rest) tokens
  | token {offset : Nat} {text rest : List Char} {kind : TokenKind} {tokens : List Token} :
      isText kind text → Spread isText (offset + byteLength text) rest tokens →
      Spread isText offset (text ++ rest) (⟨kind, ⟨offset, offset + byteLength text⟩⟩ :: tokens)

/-- Behind a token the text goes on where its own text ends. -/
theorem stop_eq_add {offset : Nat} {chars text after : List Char} (whole : chars = text ++ after) :
    offset + (byteLength chars - byteLength after) = offset + byteLength text := by
  rw [whole, byteLength_append, Nat.add_sub_cancel]

/-- **The tokens of a text without faults stand in it**, and the end stands behind it. -/
theorem spread_of_tokensFrom {isText : TokenKind → List Char → Prop}
    (cut : ∀ {first : Char} {rest after : List Char} {kind : TokenKind},
      readToken first rest = .ok (kind, after) →
        ∃ text, first :: rest = text ++ after ∧ isText kind text)
    {offset : Nat} {chars : List Char} {tokens : List Token}
    (read : tokensFrom offset chars = .ok tokens) :
    ∃ front, tokens = front ++ [⟨.stop, ⟨offset + byteLength chars, offset + byteLength chars⟩⟩] ∧
      Spread isText offset chars front := by
  fun_induction tokensFrom offset chars generalizing tokens with
  | case1 offset =>
    cases read
    exact ⟨[], rfl, .nil offset⟩
  | case2 offset first rest blank ih =>
    obtain ⟨front, whole, spread⟩ := ih read
    rw [Nat.add_assoc] at whole
    exact ⟨front, whole, .blank blank spread⟩
  | case3 => cases read
  | case4 offset first rest blank kind after found stop =>
    rename_i ih
    obtain ⟨text, whole, isText⟩ := cut found
    have place : stop = offset + byteLength text := stop_eq_add whole
    cases later : tokensFrom stop after with
    | error fault =>
      rw [later] at read
      cases read
    | ok others =>
      rw [later] at read
      cases read
      obtain ⟨front, rfl, spread⟩ := ih later
      rw [whole, byteLength_append, ← Nat.add_assoc, ← place]
      rw [place] at spread ⊢
      exact ⟨_ :: front, rfl, .token isText spread⟩

/-- A fault stands in front of a character of the text. -/
theorem fault_of_tokensFrom {offset : Nat} {chars : List Char} {fault : ExprError}
    (read : tokensFrom offset chars = .error fault) :
    ∃ problem ahead behind, chars = ahead ++ behind ∧ behind ≠ [] ∧
      fault = .malformed problem (offset + byteLength ahead) := by
  fun_induction tokensFrom offset chars with
  | case1 => cases read
  | case2 offset first rest blank ih =>
    obtain ⟨problem, ahead, behind, rfl, some, rfl⟩ := ih read
    exact ⟨problem, first :: ahead, behind, rfl, some, by rw [byteLength_cons, Nat.add_assoc]⟩
  | case3 offset first rest blank problem found =>
    cases read
    exact ⟨problem, [], first :: rest, rfl, List.cons_ne_nil _ _, rfl⟩
  | case4 offset first rest blank kind after found stop =>
    rename_i ih
    obtain ⟨text, whole, -⟩ := readToken_cut found
    have place : stop = offset + byteLength text := stop_eq_add whole
    cases later : tokensFrom stop after with
    | ok others =>
      rw [later] at read
      cases read
    | error other =>
      rw [later] at read
      cases read
      obtain ⟨problem, ahead, behind, rfl, some, rfl⟩ := ih later
      refine ⟨problem, text ++ ahead, behind, by rw [whole, List.append_assoc], some, ?_⟩
      rw [byteLength_append, place, Nat.add_assoc]

/-! ### Places -/

namespace Spread

variable {isText : TokenKind → List Char → Prop} {offset : Nat} {chars : List Char}
  {tokens : List Token}

/-- A token reads a part of the text. -/
theorem reads (spread : Spread isText offset chars tokens) :
    ∀ token ∈ tokens, ∃ ahead text behind, chars = ahead ++ text ++ behind ∧
      isText token.kind text ∧
      token.span = ⟨offset + byteLength ahead, offset + byteLength ahead + byteLength text⟩ := by
  induction spread with
  | nil => exact fun _ member => by cases member
  | @blank offset char rest tokens _ _ ih =>
    intro token member
    obtain ⟨ahead, text, behind, rfl, isText, place⟩ := ih token member
    refine ⟨char :: ahead, text, behind, rfl, isText, ?_⟩
    rw [place, byteLength_cons, Nat.add_assoc offset]
  | @token offset front rest kind tokens here _ ih =>
    refine List.forall_mem_cons.mpr ⟨⟨[], front, rest, rfl, here, rfl⟩, ?_⟩
    intro token member
    obtain ⟨ahead, text, behind, rfl, isText, place⟩ := ih token member
    refine ⟨front ++ ahead, text, behind, by simp only [List.append_assoc], isText, ?_⟩
    rw [place, byteLength_append, Nat.add_assoc offset]

/-- The tokens stand one behind the other. -/
theorem pairwise (spread : Spread isText offset chars tokens) :
    tokens.Pairwise fun first second => first.span.stop ≤ second.span.start := by
  induction spread with
  | nil => exact .nil
  | blank _ _ ih => exact ih
  | token _ later ih =>
    refine .cons (fun token member => ?_) ih
    obtain ⟨ahead, _, _, -, -, place⟩ := later.reads token member
    rw [place]
    exact Nat.le_add_right _ _

/-- What belongs to no token is blank. -/
theorem blank_or_mem (spread : Spread isText offset chars tokens)
    {before after : List Char} {char : Char} (whole : chars = before ++ char :: after) :
    isBlank char = true ∨
      ∃ token ∈ tokens, token.span.contains (offset + byteLength before) = true := by
  induction spread generalizing before with
  | nil => simp at whole
  | @blank offset first rest tokens blank _ ih =>
    cases before with
    | nil =>
      obtain ⟨rfl, -⟩ := List.cons.inj whole
      exact .inl blank
    | cons other before =>
      obtain ⟨rfl, same⟩ := List.cons.inj whole
      have later := ih same
      rwa [Nat.add_assoc] at later
  | @token offset text rest kind tokens _ _ ih =>
    have behind : ∀ {middle : List Char}, rest = middle ++ char :: after → before = text ++ middle →
        isBlank char = true ∨ ∃ token ∈ ⟨kind, ⟨offset, offset + byteLength text⟩⟩ :: tokens,
          token.span.contains (offset + byteLength before) = true := by
      rintro middle same rfl
      rw [byteLength_append, ← Nat.add_assoc]
      exact (ih same).imp_right fun ⟨found, listed, inside⟩ =>
        ⟨found, List.mem_cons_of_mem _ listed, inside⟩
    rcases List.append_eq_append_iff.mp whole with ⟨middle, cut, same⟩ | ⟨middle, cut, same⟩
    · exact behind same cut
    · cases middle with
      | nil =>
        have next : rest = [] ++ char :: after := same.symm
        exact behind next (by rw [cut, List.append_nil, List.append_nil])
      | cons first middle =>
        obtain ⟨rfl, -⟩ := List.cons.inj same
        refine .inr ⟨_, List.mem_cons_self, ?_⟩
        have size := char.utf8Size_pos
        rw [cut, byteLength_append, byteLength_cons]
        simp only [Span.contains, Bool.and_eq_true, decide_eq_true_eq]
        omega

end Spread

/-! ### Sources -/

/-- **The tokens of a source lose nothing but blanks.** Either there is a fault, in front of a
character of the source; or the tokens stand in it one behind the other, each takes at least one
byte between two characters, a punctuator takes its own text, and every character that belongs to
none of them is blank. The end comes last, behind the source. -/
theorem tokenize_spread (source : String) :
    (∃ problem offset, tokenize source = .error (.malformed problem offset) ∧
        offset < source.utf8ByteSize ∧ (⟨offset⟩ : String.Pos.Raw).IsValid source) ∨
      ∃ tokens, tokenize source =
          .ok (tokens ++ [⟨.stop, ⟨source.utf8ByteSize, source.utf8ByteSize⟩⟩]) ∧
        (∀ token ∈ tokens, token.kind ≠ .stop ∧ token.span.start < token.span.stop ∧
          (⟨token.span.start⟩ : String.Pos.Raw).IsValid source ∧
          (⟨token.span.stop⟩ : String.Pos.Raw).IsValid source ∧
          ∀ mark, token.kind = .mark mark →
            String.Pos.Raw.extract source ⟨token.span.start⟩ ⟨token.span.stop⟩ = mark) ∧
        (tokens.Pairwise fun first second => first.span.stop ≤ second.span.start) ∧
        ∀ before char after, source.toList = before ++ char :: after →
          isBlank char = true ∨
            ∃ token ∈ tokens, token.span.contains (byteLength before) = true := by
  cases read : tokenize source with
  | error fault =>
    obtain ⟨problem, ahead, behind, whole, solid, rfl⟩ := fault_of_tokensFrom read
    have reads : (⟨byteLength ahead, byteLength ahead + byteLength behind⟩ : Span).Reads source
        (String.ofList behind) := ⟨ahead, [], by simpa using whole, by simp⟩
    have size := byteLength_pos solid
    refine .inl ⟨problem, _, rfl, ?_, ?_⟩
    · rw [← byteLength_toList, whole, byteLength_append]
      omega
    · rw [Nat.zero_add]
      exact reads.start_isValid
  | ok tokens =>
    obtain ⟨front, rfl, spread⟩ := spread_of_tokensFrom readToken_cut read
    rw [Nat.zero_add, byteLength_toList]
    refine .inr ⟨front, rfl, fun token member => ?_, spread.pairwise,
      fun before char after whole => ?_⟩
    · obtain ⟨ahead, text, behind, whole, isText, place⟩ := spread.reads token member
      have reads : token.span.Reads source (String.ofList text) := by
        refine ⟨ahead, behind, by rw [whole, String.toList_ofList], ?_⟩
        rw [place, Nat.zero_add, String.toList_ofList]
      have size := byteLength_pos isText.nonempty
      refine ⟨isText.inner, ?_, reads.start_isValid, reads.stop_isValid, fun mark same => ?_⟩
      · rw [place]
        exact Nat.lt_add_of_pos_right size
      · rw [reads.extract, isText.fixed mark same, String.ofList_toList]
    · have found := spread.blank_or_mem whole
      rwa [Nat.zero_add] at found

example : (tokenize "é?.b \u2003'\\''").map (List.map Token.span) =
    .ok [⟨0, 2⟩, ⟨2, 4⟩, ⟨4, 5⟩, ⟨9, 13⟩, ⟨13, 13⟩] := by decide +kernel

end PromptMarkup.Expr
