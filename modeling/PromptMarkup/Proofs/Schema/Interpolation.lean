/-
**Where the templates of a body in JSON end.**

The templates of a body are found by their marks alone: the first opening mark begins one, and the
first closing mark behind it ends it. So what is written between the marks is the one template of
the body exactly when no marks come earlier, together with the braces on either side or inside of
it, such as in a string or behind nested objects.

* `cutAt?_of_first`, `exists_first`: a text is cut where a pattern first occurs in it;
* `templatePart_eq`: the expression of a template and its range;
* `bodyPartsFrom_of_first`: the parts of a body up to behind its first template;
* `IsSoleTemplate`: a text between the marks is evaluated once, as it is, and replaced;
* `isSoleTemplate_iff`: when it is.
-/

import PromptMarkup.Expr.Evaluate
import PromptMarkup.Proofs.Markup.LexerSteps
import PromptMarkup.Proofs.Schema.BodyPlaces

namespace PromptMarkup.Schema

open Text
open Markup (templateOpening templateClosing)

/-! ### First occurrences -/

/-- A pattern occurs behind some text for the first time. -/
def FirstBehind (pattern front : List Char) : Prop := ¬ pattern <:+: front ++ pattern.dropLast

/-- **A text is cut at the first occurrence of a pattern.** -/
theorem cutAt?_of_first {pattern front : List Char} (first : FirstBehind pattern front)
    (rest : List Char) :
    cutAt? pattern (front ++ (pattern ++ rest)) = some (front, rest) := by
  have goes : ∀ part, part <:+ front → part ≠ [] →
      pattern.isPrefixOf (part ++ (pattern ++ rest)) = false := by
    intro part suffix nonemptyPart
    by_contra begins
    rw [Bool.not_eq_false, List.isPrefixOf_iff_prefix] at begins
    -- An occurrence that begins in front of the pattern does not reach its last character.
    have reach : part ++ pattern.dropLast <+: part ++ (pattern ++ rest) := by
      rw [List.prefix_append_right_inj]
      exact (List.dropLast_prefix pattern).trans (List.prefix_append pattern rest)
    have short : pattern.length ≤ (part ++ pattern.dropLast).length := by
      have := List.length_pos_iff.mpr nonemptyPart
      rw [List.length_append, List.length_dropLast]
      omega
    obtain ⟨ahead, rfl⟩ := suffix
    have inside := (List.prefix_of_prefix_length_le begins reach short).isInfix
    refine first (inside.trans ?_)
    rw [List.append_assoc]
    exact (List.suffix_append ahead _).isInfix
  have stops : pattern.isPrefixOf (pattern ++ rest) = true :=
    List.isPrefixOf_iff_prefix.mpr (List.prefix_append pattern rest)
  unfold cutAt?
  rw [Markup.cutWhere_of_none goes (.inr stops)]
  simp only [Text.dropPrefix?_append, Option.map_some]

/-- What occurs in a text occurs in it for a first time. -/
theorem exists_first {pattern chars : List Char} (nonempty : pattern ≠ [])
    (occurs : pattern <:+: chars) :
    ∃ front rest, chars = front ++ (pattern ++ rest) ∧ FirstBehind pattern front := by
  induction chars with
  | nil => exact absurd (List.eq_nil_of_infix_nil occurs) nonempty
  | cons char chars ih =>
    by_cases here : pattern <+: char :: chars
    · obtain ⟨rest, same⟩ := here
      refine ⟨[], rest, same.symm, fun inside => ?_⟩
      have := inside.length_le
      have := List.length_pos_iff.mpr nonempty
      rw [List.nil_append, List.length_dropLast] at *
      omega
    · obtain ⟨front, rest, same, first⟩ := ih ((List.infix_cons_iff.mp occurs).resolve_left here)
      refine ⟨char :: front, rest, by rw [same, List.cons_append], fun inside => ?_⟩
      rw [List.cons_append] at inside
      rcases List.infix_cons_iff.mp inside with begins | later
      · refine here (begins.trans ?_)
        rw [same, List.prefix_cons_inj, List.prefix_append_right_inj]
        exact (List.dropLast_prefix pattern).trans (List.prefix_append pattern rest)
      · exact first later

/-- A text with the front of a pattern behind it, in which the pattern occurs, has something else in
front of that occurrence; the pattern behind the text is cut in two then. -/
theorem exists_earlier {mark : Char} {chars : List Char} (rest : List Char)
    (earlier : ¬ FirstBehind [mark, mark] chars) :
    ∃ front behind, chars ++ [mark] = front ++ ([mark, mark] ++ behind) ∧
      cutAt? [mark, mark] (chars ++ ([mark, mark] ++ rest)) =
        some (front, behind ++ mark :: rest) := by
  obtain ⟨front, behind, same, first⟩ := exists_first (List.cons_ne_nil _ _) (not_not.mp earlier)
  refine ⟨front, behind, same, ?_⟩
  have whole : chars ++ ([mark, mark] ++ rest) =
      front ++ ([mark, mark] ++ (behind ++ mark :: rest)) := by
    have appended := congrArg (· ++ mark :: rest) same
    simpa only [List.dropLast, List.append_assoc, List.cons_append, List.nil_append] using appended
  rw [whole, cutAt?_of_first first]

/-! ### Templates -/

/-- The blanks in front of a text end at the first character that is none. -/
theorem takeWhile_blank_le {front inner rest : List Char} {char : Char}
    (visible : isBlank char = false) (inside : inner <+: front ++ char :: rest) :
    byteLength (inner.takeWhile isBlank) ≤ byteLength front := by
  induction front generalizing inner with
  | nil =>
    cases inner with
    | nil => exact Nat.le_refl 0
    | cons first others =>
      obtain ⟨rfl, _⟩ := List.cons_prefix_cons.mp inside
      rw [List.takeWhile_cons_of_neg (by rw [visible]; decide)]
  | cons next front ih =>
    cases inner with
    | nil => exact Nat.zero_le _
    | cons first others =>
      obtain ⟨rfl, later⟩ := List.cons_prefix_cons.mp inside
      rw [List.takeWhile_cons]
      split
      · exact Nat.add_le_add_left (ih later) _
      · exact Nat.zero_le _

/-- Trimming stops at a character that is no blank, from either side. -/
theorem trim_append_visible {char : Char} (visible : isBlank char = false)
    (front rest : List Char) :
    trim (front ++ char :: rest) = trimStart front ++ char :: trimEnd rest := by
  have stop : ∀ ahead behind : List Char, (ahead ++ char :: behind).dropWhile isBlank =
      ahead.dropWhile isBlank ++ char :: behind := by
    intro ahead behind
    induction ahead with
    | nil => exact List.dropWhile_cons_of_neg (by rw [visible]; decide)
    | cons first ahead ih =>
      rw [List.cons_append, List.dropWhile_cons, List.dropWhile_cons, ih]
      split <;> rfl
  unfold trim trimStart trimStartBy trimEnd trimEndBy
  rw [stop, List.reverse_append, List.reverse_cons, List.append_assoc, List.singleton_append, stop]
  simp

/-- What is trimmed off the front of a text are the blanks in front of it. -/
theorem byteLength_trimStart (chars : List Char) :
    byteLength chars - byteLength (trimStart chars) = byteLength (chars.takeWhile isBlank) := by
  have whole := congrArg byteLength (List.takeWhile_append_dropWhile (p := isBlank) (l := chars))
  rw [byteLength_append] at whole
  unfold trimStart trimStartBy
  omega

/-- The range of a text without the blanks around it, the text itself starting at an offset. -/
def trimmedSpan (offset : Nat) (chars : List Char) : Span :=
  let start := offset + byteLength (chars.takeWhile isBlank)
  ⟨start, start + byteLength (trim chars)⟩

theorem templatePart_eq (offset : Nat) (inner : List Char) :
    templatePart offset inner =
      .template (String.ofList (trim inner)) (trimmedSpan offset inner) := by
  unfold templatePart trimmedSpan
  rw [byteLength_trimStart]

/-- The text in front of the first template of a body, the template, and what is behind it. -/
theorem bodyPartsFrom_of_cut {chars before rest inner after : List Char} (offset : Nat)
    (opened : cutAt? templateOpening chars = some (before, rest))
    (closed : cutAt? templateClosing rest = some (inner, after)) :
    bodyPartsFrom offset chars = .text before
      :: .template (String.ofList (trim inner)) (trimmedSpan (offset + byteLength before + 2) inner)
      :: bodyPartsFrom (offset + byteLength before + 2 + byteLength inner + 2) after := by
  have found : cutTemplate? chars = some (before, inner, after) := by
    unfold cutTemplate?
    show (cutAt? templateOpening chars >>= _) = _
    rw [opened]
    show (cutAt? templateClosing rest >>= _) = _
    rw [closed]
    rfl
  rw [bodyPartsFrom]
  split
  next none =>
    rw [found] at none
    cases none
  next front middle back same =>
    rw [found] at same
    cases same
    rw [← templatePart_eq]

/-- A text without an opening mark has no templates. -/
theorem bodyPartsFrom_plain {chars : List Char} (offset : Nat)
    (plain : ¬ templateOpening <:+: chars) : bodyPartsFrom offset chars = [.text chars] := by
  rw [bodyPartsFrom]
  split
  next => rfl
  next before inner after found =>
    refine absurd ?_ plain
    rw [eq_append_of_cutTemplate? found, List.append_assoc]
    exact ⟨before, _, List.append_assoc _ _ _⟩

/-! ### Interpolation -/

/-- The text of a body in which a text stands between the marks of a template. -/
def bodyAround (before inner after : String) : String :=
  String.ofList (before.toList ++ (templateOpening ++ (inner.toList ++
    (templateClosing ++ after.toList))))

/-- What stands between the marks is the one template of the body: wherever templates are evaluated,
just the text without the blanks around it is, with its range, and the value takes the place of
what stood there with the marks. -/
def IsSoleTemplate (before inner after : String) : Prop :=
  ∀ (m : Type → Type) [Monad m] [LawfulMonad m] (evaluate : String → Span → m Value),
    interpolate evaluate (bodyAround before inner after) = do
      let value ← evaluate (trimmed inner)
        (trimmedSpan (byteLength before.toList + 2) inner.toList)
      return before ++ insertedText value ++ after

/-- An evaluation that ends with its first template. -/
def firstTemplate (expression : String) (span : Span) : Except (String × Span) Value :=
  .error (expression, span)

theorem interpolate_firstTemplate {body : String} {before : List Char} {expression : String}
    {span : Span} {parts : List BodyPart}
    (shape : bodyParts body = .text before :: .template expression span :: parts) :
    interpolate firstTemplate body = .error (expression, span) := by
  unfold interpolate
  rw [shape]
  rfl

/-- The first template of a body with a sole template is that one. -/
theorem IsSoleTemplate.first {before inner after : String} {front : List Char} {expression : String}
    {span : Span} {parts : List BodyPart} (sole : IsSoleTemplate before inner after)
    (shape : bodyParts (bodyAround before inner after) =
      .text front :: .template expression span :: parts) :
    expression = trimmed inner ∧
      span = trimmedSpan (byteLength before.toList + 2) inner.toList := by
  have run := sole (Except (String × Span)) firstTemplate
  rw [interpolate_firstTemplate shape] at run
  have same : (expression, span) = _ := Except.error.inj run
  exact Prod.mk.inj same

/-- No opening mark comes earlier than that of a sole template. -/
theorem IsSoleTemplate.opening {before inner after : String}
    (sole : IsSoleTemplate before inner after) : FirstBehind templateOpening before.toList := by
  by_contra earlier
  obtain ⟨front, behind, same, opened⟩ :=
    exists_earlier (inner.toList ++ (templateClosing ++ after.toList)) earlier
  -- The template that is found begins before the first brace of the opening mark is passed.
  have closes : templateClosing <:+:
      behind ++ '\x7b' :: (inner.toList ++ (templateClosing ++ after.toList)) :=
    ⟨behind ++ '\x7b' :: inner.toList, after.toList, by simp⟩
  obtain ⟨text, rest, whole, first⟩ := exists_first (List.cons_ne_nil _ _) closes
  have closed := cutAt?_of_first first rest
  rw [← whole] at closed
  have shape := bodyPartsFrom_of_cut 0 opened closed
  have start := congrArg Span.start (sole.first (by
    rw [bodyParts, bodyAround, String.toList_ofList]
    exact shape)).2
  have blanks : byteLength (text.takeWhile isBlank) ≤ byteLength behind :=
    takeWhile_blank_le (by decide) ⟨templateClosing ++ rest, whole.symm⟩
  have size := congrArg byteLength same
  simp only [trimmedSpan, byteLength_append, byteLength_cons, byteLength_nil] at start size
  have brace : Char.utf8Size '\x7b' = 1 := by decide
  omega

/-- No closing mark comes earlier than that of a sole template. -/
theorem IsSoleTemplate.closing {before inner after : String}
    (sole : IsSoleTemplate before inner after) : FirstBehind templateClosing inner.toList := by
  by_contra earlier
  obtain ⟨front, behind, same, closed⟩ := exists_earlier after.toList earlier
  have split : inner.toList = front ++ '\x7d' :: ('\x7d' :: behind).dropLast := by
    have shorter := congrArg List.dropLast same
    simpa [List.dropLast_append_cons] using shorter
  have opened := cutAt?_of_first sole.opening
    (inner.toList ++ (templateClosing ++ after.toList))
  have shape := bodyPartsFrom_of_cut 0 opened closed
  have text := (sole.first (by
    rw [bodyParts, bodyAround, String.toList_ofList]
    exact shape)).1
  have text : trim front = trim inner.toList := String.ofList_injective text
  rw [split, trim_append_visible (by decide)] at text
  have longer := congrArg List.length text
  have shorter := (trimEndBy_front isBlank (trimStart front)).length_le
  rw [List.length_append, List.length_cons] at longer
  change (trim front).length ≤ _ at shorter
  omega

theorem isSoleTemplate_of_first {before inner after : String}
    (opening : FirstBehind templateOpening before.toList)
    (closing : FirstBehind templateClosing inner.toList)
    (plain : ¬ templateOpening <:+: after.toList) : IsSoleTemplate before inner after := by
  intro m _ _ evaluate
  have shape : bodyParts (bodyAround before inner after) = [.text before.toList,
      .template (trimmed inner) (trimmedSpan (byteLength before.toList + 2) inner.toList),
      .text after.toList] := by
    unfold bodyParts bodyAround
    rw [String.toList_ofList, bodyPartsFrom_of_cut 0 (cutAt?_of_first opening _)
      (cutAt?_of_first closing _), bodyPartsFrom_plain _ plain, Nat.zero_add]
    rfl
  unfold interpolate
  rw [shape]
  simp [partText, String.append_assoc]

/-- **What is written between the marks is the one template of a body exactly when no marks come
earlier.** That is so when no two opening braces in a row come in front of the opening mark, the
first brace of which may be the second one of them, and no two closing braces in a row in front of
the closing mark. What is written between the marks need not be an expression. -/
theorem isSoleTemplate_iff {before inner after : String}
    (plain : ¬ templateOpening <:+: after.toList) :
    IsSoleTemplate before inner after ↔
      ¬ templateOpening <:+: before.toList ++ ['\x7b'] ∧
        ¬ templateClosing <:+: inner.toList ++ ['\x7d'] := by
  constructor
  · exact fun sole => ⟨sole.opening, sole.closing⟩
  · rintro ⟨opening, closing⟩
    exact isSoleTemplate_of_first opening closing plain

/-- The closing mark may follow a brace that it is not taken together with. -/
theorem isSoleTemplate_iff_field :
    (¬ templateOpening <:+: "\x7d".toList) ∧
      IsSoleTemplate "\x7b\"a\": " " \x7ba: x\x7d " "\x7d" := by
  have plain : ¬ templateOpening <:+: "\x7d".toList := by decide
  exact ⟨plain, (isSoleTemplate_iff plain).mpr (by decide +kernel)⟩

/-- The closing braces in a string end the template, though the string is an expression. -/
theorem not_isSoleTemplate_string :
    (Expr.parse "'\x7d\x7d'").isOk = true ∧ ¬ templateOpening <:+: "".toList ∧
      ¬ IsSoleTemplate "" "'\x7d\x7d'" "" := by
  refine ⟨by decide +kernel, by decide, fun sole => ?_⟩
  exact sole.closing (by decide)

end PromptMarkup.Schema
