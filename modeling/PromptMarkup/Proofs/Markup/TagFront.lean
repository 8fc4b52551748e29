/-
**What the lexer cuts off in front of a tag.**

The parts of the lexer that cut texts, templates and comments off the front of a text look no further
than the bracket of a tag behind it and the first letter of the name. So what they cut off in front
of the tag does not depend on which tag that is.

* `TagPair`: two texts that begin with tags, with brackets of the same kind;
* `Blind`: a test that cannot tell two such texts apart, whatever is in front of them;
* `blind_beginsMarkup`, `blind_closesLiteral` and others: the tests of the lexer;
* `cutWhere_local`, `cutExpression_local`, `templateLexemes_local`, `commentLexemes_local`: the parts
  of the lexer.
-/

import PromptMarkup.Proofs.Markup.LexerRun
import PromptMarkup.Proofs.Markup.LiteralBody

namespace PromptMarkup.Markup

open Text

/-! ### Tags behind a text -/

/-- Two texts that begin with tags, either both with an open tag or both with a close tag. -/
structure TagPair (one other : List Char) : Prop where
  begins : ∃ mark first second, (mark = ['<'] ∨ mark = ['<', '/']) ∧ one = mark ++ first ∧
    other = mark ++ second ∧ startsName first = true ∧ startsName second = true

namespace TagPair

variable {one other : List Char}

theorem heads (pair : TagPair one other) :
    ∃ first second, one = '<' :: first ∧ other = '<' :: second := by
  obtain ⟨mark, first, second, rfl | rfl, rfl, rfl, _⟩ := pair.begins
  · exact ⟨_, _, rfl, rfl⟩
  · exact ⟨_, _, rfl, rfl⟩

theorem ends (pair : TagPair one other) : EndsText one ∧ EndsText other := by
  have tag : ∀ {mark rest : List Char}, mark = ['<'] ∨ mark = ['<', '/'] →
      startsName rest = true → EndsText (mark ++ rest) := by
    rintro mark rest (rfl | rfl) name
    · exact .inr (beginsMarkup_iff.mpr (begins_of_tag ['<'] Begins.opening name))
    · exact .inr (beginsMarkup_iff.mpr (begins_of_tag ['<', '/'] Begins.closing name))
  obtain ⟨mark, first, second, kind, rfl, rfl, left, right⟩ := pair.begins
  exact ⟨tag kind left, tag kind right⟩

theorem ne_nil (pair : TagPair one other) : one ≠ [] := by
  obtain ⟨first, _, rfl, _⟩ := pair.heads
  exact List.cons_ne_nil _ _

end TagPair

/-- A test does not tell two texts apart, whatever stands in front of them. -/
def Blind (one other : List Char) (test : List Char → Bool) : Prop :=
  ∀ part, test (part ++ one) = test (part ++ other)

section Blind

variable {one other : List Char}

theorem Blind.or {first second : List Char → Bool} (left : Blind one other first)
    (right : Blind one other second) :
    Blind one other fun chars => first chars || second chars := by
  intro part
  show (first _ || second _) = (first _ || second _)
  rw [left part, right part]

theorem TagPair.head?_append (pair : TagPair one other) (part : List Char) :
    (part ++ one).head? = (part ++ other).head? := by
  obtain ⟨first, second, rfl, rfl⟩ := pair.heads
  cases part <;> rfl

/-- A test of the first character. -/
theorem TagPair.blind_head (pair : TagPair one other) (test : Option Char → Bool) :
    Blind one other fun chars => test chars.head? :=
  fun part => congrArg test (pair.head?_append part)

/-- A pattern without an angle bracket does not reach into a tag. -/
theorem isPrefixOf_append_angle {pattern : List Char} (free : '<' ∉ pattern)
    (part first second : List Char) :
    pattern.isPrefixOf (part ++ '<' :: first) = pattern.isPrefixOf (part ++ '<' :: second) := by
  induction pattern generalizing part with
  | nil => simp
  | cons char pattern ih =>
    obtain ⟨angle, later⟩ := List.ne_and_not_mem_of_not_mem_cons free
    cases part with
    | nil =>
      have differs : (char == '<') = false := beq_eq_false_iff_ne.mpr (Ne.symm angle)
      simp [List.isPrefixOf, differs]
    | cons head part =>
      rw [List.cons_append, List.cons_append, List.isPrefixOf, List.isPrefixOf, ih later part]

theorem TagPair.blind_pattern (pair : TagPair one other) {pattern : List Char}
    (free : '<' ∉ pattern) : Blind one other pattern.isPrefixOf := by
  obtain ⟨first, second, rfl, rfl⟩ := pair.heads
  exact fun part => isPrefixOf_append_angle free part first second

theorem TagPair.symm (pair : TagPair one other) : TagPair other one := by
  obtain ⟨mark, first, second, kind, left, right, name, word⟩ := pair.begins
  exact ⟨mark, second, first, kind, right, left, word, name⟩

/-- A character that is no angle bracket stands in front of the tag. -/
theorem TagPair.front (pair : TagPair one other) {part tail : List Char} {char : Char}
    (whole : part ++ one = char :: tail) (angle : char ≠ '<') :
    ∃ more, part = char :: more ∧ more ++ one = tail := by
  cases part with
  | nil =>
    obtain ⟨first, second, rfl, rfl⟩ := pair.heads
    exact absurd (List.cons.inj whole).1.symm angle
  | cons head part =>
    obtain ⟨rfl, rfl⟩ := List.cons.inj whole
    exact ⟨part, rfl, rfl⟩

theorem TagPair.begins_append (pair : TagPair one other) {part : List Char}
    (begins : Begins (part ++ one)) : Begins (part ++ other) := by
  cases part with
  | nil => exact beginsMarkup_iff.mp (pair.symm.ends.1.resolve_left pair.symm.ne_nil)
  | cons char part =>
    generalize whole : char :: part ++ one = all at begins
    cases begins with
    | template rest =>
      obtain ⟨rfl, later⟩ := List.cons.inj whole
      obtain ⟨_, rfl, _⟩ := pair.front later (by decide)
      exact .template _
    | comment rest =>
      obtain ⟨rfl, bang⟩ := List.cons.inj whole
      obtain ⟨_, rfl, dash⟩ := pair.front bang (by decide)
      obtain ⟨_, rfl, last⟩ := pair.front dash (by decide)
      obtain ⟨_, rfl, _⟩ := pair.front last (by decide)
      exact .comment _
    | closing letter rest name =>
      obtain ⟨rfl, slash⟩ := List.cons.inj whole
      obtain ⟨_, rfl, later⟩ := pair.front slash (by decide)
      obtain ⟨_, rfl, _⟩ := pair.front later (ne_of_isNameStart name).1
      exact .closing letter _ name
    | opening letter rest name =>
      obtain ⟨rfl, later⟩ := List.cons.inj whole
      obtain ⟨_, rfl, _⟩ := pair.front later (ne_of_isNameStart name).1
      exact .opening letter _ name

/-- Whether markup begins does not depend on the tag behind a text. -/
theorem TagPair.blind_beginsMarkup (pair : TagPair one other) : Blind one other beginsMarkup := by
  intro part
  rw [Bool.eq_iff_iff, beginsMarkup_iff, beginsMarkup_iff]
  exact ⟨pair.begins_append, pair.symm.begins_append⟩

theorem ne_angle_of_toLower {char : Char} (angle : char ≠ '<') : char.toLower ≠ '<' := by
  intro same
  by_cases upper : char.isUpper = true
  · have alpha := isAlpha_toLower upper
    rw [same] at alpha
    cases alpha
  · rw [toLower_of_not_isUpper upper] at same
    exact angle same

/-- A close tag has an angle bracket in front only. -/
theorem IsCloseTag.angle_notMem {name : List Char} {char : Char} {rest : List Char}
    (closes : IsCloseTag name (char :: rest)) (free : '<' ∉ name) : '<' ∉ rest := by
  obtain ⟨written, blanks, whole, same, blank⟩ := closes
  obtain ⟨rfl, rfl⟩ := List.cons.inj whole
  intro member
  simp only [List.mem_cons, List.mem_append, List.not_mem_nil, or_false] at member
  rcases member with slash | member | member | close
  · exact absurd slash (by decide)
  · have lower : '<'.toLower ∈ name.map Char.toLower := same ▸ List.mem_map.mpr ⟨_, member, rfl⟩
    obtain ⟨letter, inside, equal⟩ := List.mem_map.mp lower
    have angle : letter ≠ '<' := fun found => free (found ▸ inside)
    exact ne_angle_of_toLower angle equal
  · exact absurd (blank _ member) (by decide)
  · exact absurd close (by decide)

theorem TagPair.closesLiteral_append (pair : TagPair one other) {name : List Char}
    (free : '<' ∉ name) {char : Char} {part : List Char}
    (closes : closesLiteral name (char :: part ++ one) = true) :
    closesLiteral name (char :: part ++ other) = true := by
  obtain ⟨occurrence, tag, more, whole⟩ := closesLiteral_iff.mp closes
  rcases List.append_eq_append_iff.mp whole with ⟨tail, same, _⟩ | ⟨tail, same, rest⟩
  · refine closesLiteral_iff.mpr ⟨occurrence, tag, tail ++ other, ?_⟩
    rw [same, List.append_assoc]
  · cases tail with
    | nil =>
      refine closesLiteral_iff.mpr ⟨occurrence, tag, other, ?_⟩
      rw [same, List.append_nil]
    | cons head tail =>
      obtain ⟨first, _, rfl, _⟩ := pair.heads
      obtain ⟨rfl, _⟩ := List.cons.inj rest
      subst same
      have late : '<' ∈ part ++ '<' :: tail := List.mem_append_right part List.mem_cons_self
      exact absurd late (IsCloseTag.angle_notMem tag free)

/-- Whether a literal element is closed does not depend on the tag behind a text, unless it is the
tag that closes the element. -/
theorem TagPair.blind_closesLiteral (pair : TagPair one other) {name : List Char}
    (free : '<' ∉ name) (here : closesLiteral name one = closesLiteral name other) :
    Blind one other (closesLiteral name) := by
  intro part
  cases part with
  | nil => exact here
  | cons char part =>
    rw [Bool.eq_iff_iff]
    exact ⟨pair.closesLiteral_append free, pair.symm.closesLiteral_append free⟩

end Blind

/-! ### Parts of the lexer -/

section Cuts

variable {one other : List Char} {part front left : List Char}

theorem cutWhere_cons (stop : List Char → Bool) (char : Char) (rest : List Char) :
    cutWhere stop (char :: rest) =
      if stop (char :: rest) then ([], char :: rest)
      else (char :: (cutWhere stop rest).1, (cutWhere stop rest).2) := rfl

/-- A text that is cut off has ended when what is left is all of the text. -/
theorem eq_nil_of_append {whole : List Char} (same : front ++ (left ++ whole) = whole) :
    front = [] ∧ left = [] := by
  rw [← List.append_assoc] at same
  exact List.append_eq_nil_iff.mp (List.append_left_eq_self.mp same)

/-- What is cut off in front of the tag does not depend on the tag. -/
theorem cutWhere_local {stop : List Char → Bool} (pair : TagPair one other)
    (blind : Blind one other stop) (cut : cutWhere stop (part ++ one) = (front, left ++ one)) :
    cutWhere stop (part ++ other) = (front, left ++ other) := by
  induction part generalizing front left with
  | nil =>
    have whole := cutWhere_append stop one
    rw [List.nil_append] at cut
    rw [cut] at whole
    obtain ⟨rfl, rfl⟩ := eq_nil_of_append whole
    have here : stop one = stop other := blind []
    obtain ⟨first, second, rfl, rfl⟩ := pair.heads
    rw [cutWhere_cons] at cut
    show cutWhere stop ('<' :: second) = ([], '<' :: second)
    rw [cutWhere_cons, ← here]
    split at cut
    next stops => rw [if_pos stops]
    next => cases (Prod.mk.inj cut).1
  | cons char part ih =>
    have here : stop (char :: (part ++ one)) = stop (char :: (part ++ other)) :=
      blind (char :: part)
    rw [List.cons_append, cutWhere_cons] at cut
    rw [List.cons_append, cutWhere_cons, ← here]
    split at cut
    next stops =>
      obtain ⟨rfl, rest⟩ := Prod.mk.inj cut
      have same : char :: part ++ one = left ++ one := rest
      rw [if_pos stops, ← List.append_cancel_right same]
      rfl
    next goes =>
      obtain ⟨rfl, rest⟩ := Prod.mk.inj cut
      rw [if_neg goes, ih (Prod.ext rfl rest)]

/-- A text that does not go on in front of a tag ends there. -/
theorem TagPair.cutWhile_append (pair : TagPair one other) {keep : Char → Bool}
    (ends : keep '<' = false) (part : List Char) :
    cutWhile keep (part ++ one) = ((cutWhile keep part).1, (cutWhile keep part).2 ++ one) := by
  obtain ⟨first, _, rfl, _⟩ := pair.heads
  induction part with
  | nil => simp [cutWhile, ends]
  | cons char part ih =>
    unfold cutWhile at ih ⊢
    rw [List.cons_append, List.takeWhile_cons, List.dropWhile_cons, List.takeWhile_cons,
      List.dropWhile_cons]
    cases keep char with
    | false => rfl
    | true => simpa using ih

/-- A pattern without an angle bracket stands in front of the tag or not at all. -/
theorem TagPair.dropPrefix?_append (pair : TagPair one other) {pattern : List Char}
    (free : '<' ∉ pattern) (part : List Char) :
    dropPrefix? pattern (part ++ one) = (dropPrefix? pattern part).map (· ++ one) := by
  obtain ⟨first, _, rfl, _⟩ := pair.heads
  induction pattern generalizing part with
  | nil => rfl
  | cons expected pattern ih =>
    obtain ⟨angle, later⟩ := List.ne_and_not_mem_of_not_mem_cons free
    cases part with
    | nil => simp [dropPrefix?, Ne.symm angle]
    | cons char part =>
      rw [List.cons_append, dropPrefix?, dropPrefix?, ih later part]
      split <;> rfl

/-- A pattern with an angle bracket in front at most, in a text that is not empty. -/
theorem TagPair.dropPrefix?_cons (pair : TagPair one other) {expected : Char}
    {pattern : List Char} (free : '<' ∉ pattern) (char : Char) (part : List Char) :
    dropPrefix? (expected :: pattern) (char :: (part ++ one)) =
      (dropPrefix? (expected :: pattern) (char :: part)).map (· ++ one) := by
  rw [dropPrefix?, dropPrefix?, pair.dropPrefix?_append free]
  split <;> rfl

/-- Outside of a string literal. -/
theorem cutExpression_none (depth : Nat) (char : Char) (rest : List Char) :
    cutExpression depth none (char :: rest) =
      if char = '\x7d' ∧ depth = 0 ∧ rest.head? = some '\x7d' then ([], char :: rest)
      else
        let depth := if char = '\x7b' then depth + 1 else if char = '\x7d' then depth - 1 else depth
        let mark := if char = '"' ∨ char = '\'' ∨ char = '\x60' then some char else none
        (char :: (cutExpression depth mark rest).1, (cutExpression depth mark rest).2) := by
  by_cases escape : char = '\\'
  · subst escape
    cases rest with
    | nil => simp [cutExpression]
    | cons next rest => simp [cutExpression]
  · rw [cutExpression]
    exact fun next rest same => absurd same escape

/-- **A template that ends in front of the tag** ends there whatever the tag is. -/
theorem cutExpression_local (pair : TagPair one other) {depth : Nat} {mark : Option Char}
    (cut : cutExpression depth mark (part ++ one) = (front, left ++ one)) :
    cutExpression depth mark (part ++ other) = (front, left ++ other) := by
  have whole := cutExpression_append depth mark (part ++ one)
  rw [cut] at whole
  -- Behind a backslash two characters are taken at once, so the induction is on the length.
  induction size : part.length using Nat.strong_induction_on
    generalizing part depth mark front left with
  | h count ih =>
    cases part with
    | nil =>
      -- At the tag the expression goes on, so that it does not end there.
      obtain ⟨rfl, rfl⟩ := eq_nil_of_append whole
      obtain ⟨first, _, rfl, _⟩ := pair.heads
      cases mark with
      | none => simp [cutExpression] at cut
      | some quote => simp [cutExpression] at cut
    | cons char part =>
      rw [List.length_cons] at size
      have rest : ∀ {text}, front = char :: text → text ++ (left ++ one) = part ++ one := by
        rintro text rfl
        exact (List.cons.inj whole).2
      rw [List.cons_append] at cut ⊢
      cases mark with
      | none =>
        rw [cutExpression_none] at cut ⊢
        rw [← pair.head?_append part]
        split at cut
        next ends =>
          obtain ⟨rfl, same⟩ := Prod.mk.inj cut
          have same : char :: part ++ one = left ++ one := same
          rw [if_pos ends, ← List.append_cancel_right same]
          rfl
        next goes =>
          obtain ⟨same, behind⟩ := Prod.mk.inj cut
          rw [if_neg goes]
          simp only [ih part.length (by omega) (Prod.ext rfl behind) (rest same.symm) rfl, same]
      | some quote =>
        by_cases escape : char = '\\'
        · subst escape
          cases part with
          | nil =>
            obtain ⟨first, _, rfl, _⟩ := pair.heads
            rw [List.nil_append, cutExpression_escape] at cut
            obtain ⟨rfl, _⟩ := Prod.mk.inj cut
            have long := congrArg List.length (rest rfl)
            simp only [List.length_append, List.length_cons, List.length_nil] at long
            omega
          | cons next part =>
            rw [List.cons_append, cutExpression_escape] at cut ⊢
            obtain ⟨same, behind⟩ := Prod.mk.inj cut
            rw [List.length_cons] at size
            have tail := (List.cons.inj (rest same.symm)).2
            simp only [ih part.length (by omega) (Prod.ext rfl behind) tail rfl, same]
        · rw [cutExpression_inside _ _ _ escape] at cut ⊢
          obtain ⟨same, behind⟩ := Prod.mk.inj cut
          simp only [ih part.length (by omega) (Prod.ext rfl behind) (rest same.symm) rfl, same]

/-- A mark in front of what is left does not depend on what that is. -/
theorem dropPrefix?_local (other : List Char) {pattern rest : List Char}
    (found : dropPrefix? pattern rest = some (left ++ one)) :
    ∃ inner, rest = inner ++ one ∧ dropPrefix? pattern (inner ++ other) = some (left ++ other) := by
  refine ⟨pattern ++ left, ?_, ?_⟩
  · rw [eq_append_of_dropPrefix? found, List.append_assoc]
  · rw [List.append_assoc, Text.dropPrefix?_append]

/-- **A template.** -/
theorem templateLexemes_local (pair : TagPair one other) {read : List Lexeme}
    (cut : templateLexemes (part ++ one) = (read, left ++ one)) :
    templateLexemes (part ++ other) = (read, left ++ other) := by
  have blanks : ∀ {rest}, EndsText rest → cutWhile isMarkupBlank (part ++ rest) =
      ((cutWhile isMarkupBlank part).1, (cutWhile isMarkupBlank part).2 ++ rest) :=
    fun ends => ends.cutWhile_append part
  unfold templateLexemes at cut ⊢
  rw [blanks pair.ends.1] at cut
  rw [blanks pair.ends.2]
  simp only at cut ⊢
  generalize same : cutExpression 0 none ((cutWhile isMarkupBlank part).2 ++ one) = body at cut
  obtain ⟨body, rest⟩ := body
  simp only at cut
  split at cut
  next after found =>
    obtain ⟨rfl, rfl⟩ := Prod.mk.inj cut
    obtain ⟨inner, rfl, dropped⟩ := dropPrefix?_local other found
    rw [cutExpression_local pair same]
    simp only [dropped]
  next found =>
    obtain ⟨rfl, rfl⟩ := Prod.mk.inj cut
    rw [cutExpression_local pair same]
    rw [pair.dropPrefix?_append (by decide), Option.map_eq_none_iff] at found
    simp only [pair.symm.dropPrefix?_append (show '<' ∉ templateClosing by decide), found,
      Option.map_none]

/-- **A comment.** -/
theorem commentLexemes_local (pair : TagPair one other) {read : List Lexeme}
    (cut : commentLexemes (part ++ one) = (read, left ++ one)) :
    commentLexemes (part ++ other) = (read, left ++ other) := by
  have blind := pair.blind_pattern (show '<' ∉ commentClosing by decide)
  unfold commentLexemes at cut ⊢
  simp only at cut ⊢
  generalize same : cutWhere commentClosing.isPrefixOf (part ++ one) = body at cut
  obtain ⟨body, rest⟩ := body
  simp only at cut
  split at cut
  next after found =>
    obtain ⟨rfl, rfl⟩ := Prod.mk.inj cut
    obtain ⟨inner, rfl, dropped⟩ := dropPrefix?_local other found
    rw [cutWhere_local pair blind same]
    simp only [dropped]
  next found =>
    obtain ⟨rfl, rfl⟩ := Prod.mk.inj cut
    rw [cutWhere_local pair blind same]
    rw [pair.dropPrefix?_append (by decide), Option.map_eq_none_iff] at found
    simp only [pair.symm.dropPrefix?_append (show '<' ∉ commentClosing by decide), found,
      Option.map_none]

end Cuts

end PromptMarkup.Markup
