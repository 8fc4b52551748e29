/-
**Changes of fragments as changes of texts.**

Trimming and indenting work piece by piece, and what they do depends on the pieces before: a margin
is due when a piece in front ends its line, and a piece that is trimmed away leaves the rest to the
next. On fragments without attachments they are changes of the text, wherever it is cut. Attachments
end the trimming: what stands between the first of them and the last is not touched.

* `Text.indented`: a text with a margin in front of its lines;
* `indentChars`, `isPending`: the same for a text that goes on behind another one;
* `chars_indentLines`, `chars_indentFrom`: pieces are indented as their texts are;
* `indentChars_eq`: what is indented character by character has its lines indented;
* `trimFront_append_attached`, `trimBack_append_attached`: trimming up to an attachment;
* `text_indent_trimBy`: both changes of a fragment, with and without attachments.
-/

import PromptMarkup.Proofs.Output.FragmentText

namespace PromptMarkup

open Text (trimStartBy trimEndBy)

/-! ### Lines -/

namespace Text

/-- A line behind a margin; an empty line has none. -/
def behindMargin (margin line : List Char) : List Char := if line = [] then [] else margin ++ line

/-- A text with a margin in front of every line but the first, unless the line is empty. -/
def indented (margin chars : List Char) : List Char :=
  let lines := chars.splitOn '\n'
  ['\n'].intercalate (lines.take 1 ++ (lines.drop 1).map (behindMargin margin))

end Text

open Text (behindMargin indented)

/-- A text that goes on behind another one, with a margin in front of every line that starts in it;
`pending` says whether the text in front has ended a line. -/
def indentChars (margin : List Char) (pending : Bool) : List Char → List Char
  | [] => []
  | char :: rest =>
    (if pending && char ≠ '\n' then margin else []) ++
      char :: indentChars margin (char = '\n') rest

/-- A text has ended a line, or nothing of it stands behind one that has. -/
def isPending (pending : Bool) (chars : List Char) : Bool :=
  chars.foldl (fun _ char => char = '\n') pending

theorem isPending_append (pending : Bool) (first second : List Char) :
    isPending pending (first ++ second) = isPending (isPending pending first) second :=
  List.foldl_append

theorem indentChars_append (margin : List Char) (pending : Bool) (first second : List Char) :
    indentChars margin pending (first ++ second) =
      indentChars margin pending first ++ indentChars margin (isPending pending first) second := by
  induction first generalizing pending with
  | nil => rfl
  | cons char rest ih =>
    rw [List.cons_append, indentChars, ih, indentChars, List.append_assoc]
    rfl

/-- A text in front of the first of some lines. -/
theorem intercalate_append (front line : List Char) (others : List (List Char)) :
    ['\n'].intercalate ((front ++ line) :: others) =
      front ++ ['\n'].intercalate (line :: others) := by
  cases others <;> simp [List.intercalate_cons_cons]

/-- **What is indented character by character has its lines indented.** If a margin is due in front,
the first line has one, too. -/
theorem indentChars_eq (margin chars : List Char) :
    indentChars margin false chars = indented margin chars ∧
      indentChars margin true chars =
        ['\n'].intercalate ((chars.splitOn '\n').map (behindMargin margin)) := by
  induction chars with
  | nil => exact ⟨rfl, rfl⟩
  | cons char rest ih =>
    obtain ⟨inside, behind⟩ := ih
    obtain ⟨line, others, lines⟩ := List.exists_cons_of_ne_nil (List.splitOn_ne_nil '\n' rest)
    unfold indented at inside ⊢
    rw [List.splitOn_cons_eq_if_modifyHead]
    rw [lines] at inside behind ⊢
    by_cases ends : char = '\n'
    · -- the line in front is empty, and the next one has a margin
      subst ends
      simp [indentChars, behind, behindMargin, List.intercalate_cons_cons]
    · -- the character belongs to the first line, behind the margin if there is one
      have longer := intercalate_append [char] line (others.map (behindMargin margin))
      have front : behindMargin margin (char :: line) = margin ++ ([char] ++ line) :=
        if_neg (List.cons_ne_nil _ _)
      have first : (List.modifyHead (List.cons char) (line :: others)) = (char :: line) :: others :=
        rfl
      rw [if_neg (by simpa using ends), first]
      refine ⟨?_, ?_⟩
      · rw [indentChars, decide_eq_false ends, inside]
        exact longer.symm
      · rw [indentChars, if_pos (by simpa using ends), decide_eq_false ends, inside, List.map_cons,
          front, intercalate_append, longer]
        rfl

/-! ### Indentation -/

namespace Fragment

/-- A line with its end: no line feed stands in front of another character. -/
def IsLine (chars : List Char) : Prop := chars.IsChain fun char _ => char ≠ '\n'

/-- A text is cut into lines. -/
theorem isLine_of_mem {chars line : List Char}
    (member : line ∈ chars.splitBy fun char _ => char ≠ '\n') : line ≠ [] ∧ IsLine line :=
  ⟨List.ne_nil_of_mem_splitBy member,
    (List.isChain_of_mem_splitBy member).imp fun _ _ apart => of_decide_eq_true apart⟩

/-- No margin is due inside of a line. -/
theorem indentChars_inside (margin : List Char) {line : List Char} (isLine : IsLine line) :
    indentChars margin false line = line := by
  induction line with
  | nil => rfl
  | cons char rest ih =>
    rw [indentChars]
    cases rest with
    | nil => rfl
    | cons next later =>
      obtain ⟨apart, chain⟩ := List.isChain_cons_cons.mp isLine
      rw [decide_eq_false apart, ih chain]
      rfl

/-- A margin is due in front of a line that is not empty. -/
theorem indentChars_line (margin : List Char) (pending : Bool) {line : List Char}
    (solid : line ≠ []) (isLine : IsLine line) :
    indentChars margin pending line =
      (if pending && line ≠ ['\n'] then margin else []) ++ line := by
  obtain ⟨char, rest, rfl⟩ := List.exists_cons_of_ne_nil solid
  have empty : char = '\n' ↔ char :: rest = ['\n'] := by
    refine ⟨fun ends => ?_, fun same => (List.cons.inj same).1⟩
    cases rest with
    | nil => rw [ends]
    | cons next later => exact absurd ends (List.isChain_cons_cons.mp isLine).1
  have inside := indentChars_inside margin isLine
  rw [indentChars] at inside ⊢
  rw [List.cons_injective.eq_iff.mp inside]
  simp only [ne_eq, empty]

/-- The next line starts behind the end of a line. -/
theorem isPending_line (pending : Bool) {line : List Char} (solid : line ≠ []) :
    isPending pending line = decide (line.getLast? = some '\n') := by
  have whole := List.dropLast_concat_getLast solid
  rw [← whole, isPending_append, List.getLast?_append]
  simp [isPending]

/-- The lines of a piece are indented as their text is. -/
theorem chars_indentLines (margin : String) (span : Span) (pending : Bool) (piece : Piece)
    (offset : Nat) {lines : List (List Char)} (all : ∀ line ∈ lines, line ≠ [] ∧ IsLine line) :
    chars (indentLines margin span pending (piece.slicesFrom offset lines)).1 =
        indentChars margin.toList pending lines.flatten ∧
      (indentLines margin span pending (piece.slicesFrom offset lines)).2 =
        isPending pending lines.flatten := by
  induction lines generalizing pending offset with
  | nil => exact ⟨rfl, rfl⟩
  | cons line rest ih =>
    obtain ⟨⟨solid, isLine⟩, later⟩ := List.forall_mem_cons.mp all
    have text : (piece.slice offset line).text = String.ofList line := rfl
    have lineFeed : String.ofList line = "\n" ↔ line = ['\n'] := by
      rw [← String.toList_inj, String.toList_ofList]
      rfl
    obtain ⟨behind, last⟩ := ih (isPending pending line) (offset + Text.byteLength line) later
    rw [List.flatten_cons, indentChars_append, isPending_append,
      indentChars_line margin.toList pending solid isLine]
    unfold Piece.slicesFrom indentLines
    simp only [text, String.toList_ofList, ← isPending_line pending solid, ne_eq, lineFeed]
    split
    next => exact ⟨by simp [text, behind, Piece.synthetic, Piece.ofText], last⟩
    next => exact ⟨by simp [text, behind], last⟩

/-- **Pieces are indented as their text is**, wherever it is cut. -/
theorem chars_indentFrom (margin : String) (span : Span) (pending : Bool) {fragment : Fragment}
    (bare : IsBare fragment) :
    (indentFrom margin span pending fragment).chars =
      indentChars margin.toList pending fragment.chars := by
  induction fragment generalizing pending with
  | nil => rfl
  | cons piece rest ih =>
    obtain ⟨none, bare⟩ := isBare_cons.mp bare
    have cut : ∀ line ∈ piece.text.toList.splitBy fun char _ => char ≠ '\n',
        line ≠ [] ∧ IsLine line := fun line => isLine_of_mem
    obtain ⟨lines, last⟩ := chars_indentLines margin span pending piece 0 cut
    rw [List.flatten_splitBy] at lines last
    unfold indentFrom
    rw [if_neg (by rw [none]; decide), chars_cons, indentChars_append, ← last, ← lines]
    exact (chars_append _ _).trans (congrArg _ (ih _ bare))

/-! ### Attachments -/

/-- A piece with an attachment. -/
def IsAttached (piece : Piece) : Prop := piece.attachment ≠ none

/-- A fragment with an attachment at either end. -/
def IsEnclosed (fragment : Fragment) : Prop :=
  (∃ piece ∈ fragment.head?, IsAttached piece) ∧ ∃ piece ∈ fragment.getLast?, IsAttached piece

/-- Trimming in front does not go past an attachment. -/
theorem trimFront_append_attached (drop : Char → Bool) {piece : Piece} (attached : IsAttached piece)
    (before after : Fragment) :
    trimFront drop (before ++ piece :: after) = trimFront drop before ++ piece :: after := by
  induction before with
  | nil =>
    show trimFront drop (piece :: after) = piece :: after
    rw [trimFront, if_pos (Option.isSome_iff_ne_none.mpr attached)]
  | cons first rest ih =>
    rw [List.cons_append, trimFront, trimFront, ih]
    split
    next => rfl
    next => simp only; split <;> rfl

/-- Trimming at the back does not go past an attachment. -/
theorem trimBack_append_attached (drop : Char → Bool) {piece : Piece} (attached : IsAttached piece)
    (before after : Fragment) :
    trimBack drop (before ++ piece :: after) = before ++ piece :: trimBack drop after := by
  induction before with
  | nil =>
    rw [List.nil_append, trimBack]
    split
    next kept => rw [kept]; rfl
    next kept => rw [kept, if_pos (Option.isSome_iff_ne_none.mpr attached)]; rfl
  | cons first rest ih =>
    obtain ⟨next, more, whole⟩ := List.exists_cons_of_ne_nil
      (List.append_ne_nil_of_right_ne_nil rest (List.cons_ne_nil piece (trimBack drop after)))
    rw [List.cons_append, trimBack, ih, List.cons_append, whole]

/-- The last attachment of a fragment that has any. -/
theorem exists_last_attached {fragment : Fragment} (rich : ¬ IsBare fragment) :
    ∃ before piece after, fragment = before ++ piece :: after ∧ IsAttached piece ∧
      IsBare after := by
  induction fragment with
  | nil => exact absurd (fun _ member => by cases member) rich
  | cons piece rest ih =>
    by_cases bare : IsBare rest
    · have attached : IsAttached piece := fun none => rich (isBare_cons.mpr ⟨none, bare⟩)
      exact ⟨[], piece, rest, rfl, attached, bare⟩
    · obtain ⟨before, last, after, rfl, found, clean⟩ := ih bare
      exact ⟨piece :: before, last, after, rfl, found, clean⟩

/-- The first attachment of a fragment that has any. -/
theorem exists_first_attached {fragment : Fragment} (rich : ¬ IsBare fragment) :
    ∃ before piece after, fragment = before ++ piece :: after ∧ IsBare before ∧
      IsAttached piece := by
  have reversed : ¬ IsBare fragment.reverse := fun bare =>
    rich fun piece member => bare piece (List.mem_reverse.mpr member)
  obtain ⟨before, piece, after, whole, attached, bare⟩ := exists_last_attached reversed
  refine ⟨after.reverse, piece, before.reverse, ?_, fun other member => ?_, attached⟩
  · rw [← List.reverse_reverse fragment, whole]
    simp
  · exact bare other (List.mem_reverse.mp member)

/-- A fragment with attachments: those at either end, and text in front and behind. -/
theorem exists_enclosed {fragment : Fragment} (rich : ¬ IsBare fragment) :
    ∃ before core after, fragment = before ++ core ++ after ∧ IsBare before ∧ IsEnclosed core ∧
      IsBare after := by
  obtain ⟨before, first, rest, rfl, clean, attached⟩ := exists_first_attached rich
  by_cases bare : IsBare rest
  · have alone : IsEnclosed [first] := ⟨⟨first, rfl, attached⟩, first, rfl, attached⟩
    exact ⟨before, [first], rest, by simp, clean, alone, bare⟩
  · obtain ⟨middle, last, after, rfl, found, behind⟩ := exists_last_attached bare
    have both : IsEnclosed (first :: middle ++ [last]) :=
      ⟨⟨first, rfl, attached⟩, last, List.getLast?_concat, found⟩
    exact ⟨before, first :: middle ++ [last], after, by simp, clean, both, behind⟩

/-- **Nothing between the first and the last attachment is trimmed.** -/
theorem trimBy_enclosed (front back : Char → Bool) (before after : Fragment) {core : Fragment}
    (enclosed : IsEnclosed core) :
    trimBy front back (before ++ core ++ after) =
      trimFront front before ++ core ++ trimBack back after := by
  obtain ⟨⟨first, head, attached⟩, last, final, found⟩ := enclosed
  obtain ⟨inner, rfl⟩ := List.getLast?_eq_some_iff.mp final
  obtain ⟨more, whole⟩ := List.head?_eq_some_iff.mp head
  have trimmed : trimFront front (before ++ (inner ++ [last]) ++ after) =
      trimFront front before ++ (inner ++ [last]) ++ after := by
    rw [whole, List.append_assoc, List.cons_append, trimFront_append_attached front attached,
      List.append_assoc, List.cons_append]
  have split : ∀ behind, trimFront front before ++ (inner ++ [last]) ++ behind =
      trimFront front before ++ inner ++ last :: behind := by simp
  unfold trimBy
  rw [trimmed, split, trimBack_append_attached back found, split]

/-! ### Changes of text -/

/-- **Indentation indents the text.** -/
theorem text_indent {fragment : Fragment} (bare : IsBare fragment) (margin : String) (span : Span) :
    (fragment.indent margin span).text =
      String.ofList (indented margin.toList fragment.text.toList) := by
  unfold indent
  rw [text_eq, chars_indentFrom margin span false bare, (indentChars_eq _ _).1, toList_text]

/-- **Trimming trims the text.** -/
theorem text_trimBy {fragment : Fragment} (bare : IsBare fragment) (front back : Char → Bool) :
    (fragment.trimBy front back).text =
      String.ofList (trimEndBy back (trimStartBy front fragment.text.toList)) := by
  rw [text_eq, chars_trimBy front back bare, toList_text]

end Fragment

/-- **Changes of fragments are changes of texts.** Without attachments a fragment is indented and
trimmed as its text is, so that fragments of one text become fragments of one text, wherever they
are cut. With attachments it is trimmed in front of the first and behind the last of them, and
everything between those stays as it is. -/
theorem text_indent_trimBy (fragment : Fragment) (margin : String) (span : Span)
    (front back : Char → Bool) :
    (fragment.IsBare →
      (fragment.indent margin span).text =
          String.ofList (indented margin.toList fragment.text.toList) ∧
        (fragment.trimBy front back).text =
          String.ofList (trimEndBy back (trimStartBy front fragment.text.toList)) ∧
        ∀ (other : Fragment) (place : Span), other.IsBare → other.text = fragment.text →
          (other.indent margin place).text = (fragment.indent margin span).text ∧
            (other.trimBy front back).text = (fragment.trimBy front back).text) ∧
      (¬ fragment.IsBare → ∃ before core after : Fragment, fragment = before ++ core ++ after ∧
        before.IsBare ∧ core.IsEnclosed ∧ after.IsBare ∧
        fragment.trimBy front back = before.trimFront front ++ core ++ after.trimBack back ∧
        (before.trimFront front).text = String.ofList (trimStartBy front before.text.toList) ∧
        (after.trimBack back).text = String.ofList (trimEndBy back after.text.toList)) := by
  refine ⟨fun bare => ?_, fun rich => ?_⟩
  · refine ⟨Fragment.text_indent bare margin span, Fragment.text_trimBy bare front back,
      fun other place clean same => ⟨?_, ?_⟩⟩
    · rw [Fragment.text_indent clean, Fragment.text_indent bare, same]
    · rw [Fragment.text_trimBy clean, Fragment.text_trimBy bare, same]
  · obtain ⟨before, core, after, rfl, clean, enclosed, behind⟩ := Fragment.exists_enclosed rich
    refine ⟨before, core, after, rfl, clean, enclosed, behind,
      Fragment.trimBy_enclosed front back before after enclosed, ?_, ?_⟩
    · rw [Fragment.text_eq, Fragment.chars_trimFront front clean, Fragment.toList_text]
    · rw [Fragment.text_eq, (Fragment.trimBack_spec back behind).1, Fragment.toList_text]

/-- Pieces that end behind a line feed, in front of one, and inside of a line. -/
def brokenLines : Fragment :=
  [" one\n", "\n", "", "tw", "o\n", " \n"].map fun text => .synthetic text ⟨0, 0⟩

/-- A call of a tool with blanks around it, in pieces of their own. -/
def blankCall : Fragment :=
  [.synthetic "\n" ⟨0, 1⟩, .synthetic " " ⟨1, 2⟩,
    ⟨"", ⟨2, 9⟩, false, some (.toolRequest "1" "clip" .null)⟩, .synthetic " \n" ⟨9, 11⟩]

theorem text_indent_trimBy_pieces :
    brokenLines.IsBare ∧ (brokenLines.indent "  " ⟨0, 0⟩).text = " one\n\n  two\n   \n" ∧
      (brokenLines.trimBy Text.isBlank Text.isBlank).text = "one\n\ntwo" ∧
      ¬ blankCall.IsBare ∧ ∃ before core after : Fragment, blankCall = before ++ core ++ after ∧
        core.IsEnclosed ∧ blankCall.trimBy Text.isBlank Text.isBlank =
          before.trimFront Text.isBlank ++ core ++ after.trimBack Text.isBlank := by
  have bare : brokenLines.IsBare := by
    intro piece member
    obtain ⟨text, -, rfl⟩ := List.mem_map.mp member
    rfl
  have rich : ¬ blankCall.IsBare := fun bare => by
    cases bare ⟨"", ⟨2, 9⟩, false, some (.toolRequest "1" "clip" .null)⟩ (by simp [blankCall])
  obtain ⟨indented, trimmed, -⟩ :=
    (text_indent_trimBy brokenLines "  " ⟨0, 0⟩ Text.isBlank Text.isBlank).1 bare
  obtain ⟨before, core, after, whole, -, enclosed, -, kept, -⟩ :=
    (text_indent_trimBy blankCall "  " ⟨0, 0⟩ Text.isBlank Text.isBlank).2 rich
  exact ⟨bare, indented.trans (by decide), trimmed.trans (by decide), rich, before, core, after,
    whole, enclosed, kept⟩

end PromptMarkup
