/-
**Fragments as texts.**

What is done to a fragment without attachments is done to its text, whatever the pieces of it are.

* `Fragment.IsBare`, `Fragment.bareness`: a fragment without attachments;
* `Fragment.chars`: the text of a fragment;
* `Fragment.chars_trimBy`, `Fragment.chars_join`: trimming and joining as changes of the text;
* `ofParts_splitParts_trimDocument`: the parts of a trimmed fragment are its text.
-/

import Mathlib.Data.List.DropRight
import PromptMarkup.Proofs.Output.PieceLaws

namespace PromptMarkup

open Text (isBlank trimStartBy trimEndBy)

namespace Fragment

/-! ### Texts -/

/-- A fragment without attachments. -/
def IsBare (fragment : Fragment) : Prop := ∀ piece ∈ fragment, piece.attachment = none

/-- The text of a fragment. -/
def chars (fragment : Fragment) : List Char := fragment.flatMap fun piece => piece.text.toList

@[simp] theorem chars_nil : chars [] = [] := rfl

@[simp] theorem chars_cons (piece : Piece) (rest : Fragment) :
    chars (piece :: rest) = piece.text.toList ++ chars rest := rfl

@[simp] theorem chars_append (first second : Fragment) :
    chars (first ++ second) = chars first ++ chars second := List.flatMap_append

theorem toList_text (fragment : Fragment) : fragment.text.toList = fragment.chars := by
  unfold text chars
  rw [String.toList_join, List.flatMap_map]

theorem text_eq (fragment : Fragment) : fragment.text = String.ofList fragment.chars := by
  rw [← toList_text, String.ofList_toList]

/-- To have no attachment is a property that parts of pieces inherit. -/
def bareness : PieceLaw fun _ => True where
  holds piece := piece.attachment = none
  attaches := False
  place _ := trivial
  synthetic _ _ := rfl
  attached _ _ attaches _ := attaches.elim
  slice _ _ _ _ _ := rfl

theorem IsBare.covers {fragment : Fragment} (bare : IsBare fragment) : bareness.Covers fragment :=
  bare

theorem isBare_cons {piece : Piece} {rest : Fragment} :
    IsBare (piece :: rest) ↔ piece.attachment = none ∧ IsBare rest := List.forall_mem_cons

theorem isBare_append {first second : Fragment} :
    IsBare (first ++ second) ↔ IsBare first ∧ IsBare second := List.forall_mem_append

theorem isBlank_eq {fragment : Fragment} (bare : IsBare fragment) :
    fragment.isBlank = fragment.chars.all Text.isBlank := by
  induction fragment with
  | nil => rfl
  | cons piece rest ih =>
    obtain ⟨none, bare⟩ := isBare_cons.mp bare
    have step : isBlank (piece :: rest) = (piece.isBlank && isBlank rest) := rfl
    rw [step, ih bare, chars_cons, List.all_append, Piece.isBlank, none]
    rfl

/-! ### Trimming -/

section Trimming

variable (drop : Char → Bool) {fragment : Fragment}

theorem chars_trimFront (bare : IsBare fragment) :
    (trimFront drop fragment).chars = trimStartBy drop fragment.chars := by
  unfold trimStartBy
  induction fragment with
  | nil => rfl
  | cons piece rest ih =>
    obtain ⟨none, bare⟩ := isBare_cons.mp bare
    have kept : (piece.dropFront drop).text = String.ofList (piece.text.toList.dropWhile drop) :=
      rfl
    rw [trimFront, if_neg (by rw [none]; decide)]
    simp only [kept]
    rw [chars_cons, List.dropWhile_append]
    by_cases empty : piece.text.toList.dropWhile drop = []
    · rw [if_pos (by rw [empty]; rfl), if_pos (by rw [empty]; rfl), ih bare]
    · rw [if_neg (by simpa using empty), if_neg (by simpa using empty), chars_cons, kept,
        String.toList_ofList]

theorem trimEndBy_append (first second : List Char) :
    trimEndBy drop (first ++ second) =
      if trimEndBy drop second = [] then trimEndBy drop first
      else first ++ trimEndBy drop second := by
  unfold trimEndBy
  rw [List.reverse_append, List.dropWhile_append]
  by_cases empty : second.reverse.dropWhile drop = []
  · rw [empty]
    rfl
  · rw [if_neg (by simpa using empty), if_neg (by simpa using empty), List.reverse_append,
      List.reverse_reverse]

/-- Trimming at the back trims the text, and leaves no piece if it leaves no text. -/
theorem trimBack_spec (bare : IsBare fragment) :
    (trimBack drop fragment).chars = trimEndBy drop fragment.chars ∧
      (trimBack drop fragment = [] ↔ trimEndBy drop fragment.chars = []) := by
  induction fragment with
  | nil => exact ⟨rfl, by simp [trimBack, trimEndBy]⟩
  | cons piece rest ih =>
    obtain ⟨none, bare⟩ := isBare_cons.mp bare
    obtain ⟨charsRest, emptyRest⟩ := ih bare
    have kept : (piece.dropBack drop).text = String.ofList (trimEndBy drop piece.text.toList) :=
      rfl
    rw [trimBack, chars_cons, trimEndBy_append]
    split
    next next more found =>
      rw [found] at charsRest emptyRest
      have some : trimEndBy drop (chars rest) ≠ [] := fun empty => by
        cases emptyRest.mpr empty
      refine ⟨?_, ?_⟩
      · rw [if_neg some, chars_cons, charsRest]
      · rw [if_neg some]
        simp [some]
    next found =>
      rw [if_pos (emptyRest.mp found), if_neg (by rw [none]; decide)]
      simp only [kept]
      by_cases empty : trimEndBy drop piece.text.toList = []
      · rw [if_pos (by rw [empty]; rfl), empty]
        exact ⟨rfl, by simp⟩
      · rw [if_neg (by simpa using empty)]
        refine ⟨?_, by simp [empty]⟩
        rw [chars_cons, kept, String.toList_ofList, chars_nil, List.append_nil]

end Trimming

variable (front back : Char → Bool) {fragment : Fragment}

theorem isBare_trimBy (bare : IsBare fragment) : IsBare (trimBy front back fragment) :=
  PieceLaw.covers_trimBy front back bare.covers

/-- **Trimming a fragment trims its text.** -/
theorem chars_trimBy (bare : IsBare fragment) :
    (trimBy front back fragment).chars = trimEndBy back (trimStartBy front fragment.chars) := by
  have trimmed : IsBare (trimFront front fragment) := PieceLaw.covers_trimFront front bare.covers
  unfold trimBy
  rw [(trimBack_spec back trimmed).1, chars_trimFront front bare]

/-! ### Joining -/

@[simp] theorem chars_synthetic (text : String) (span : Span) :
    (synthetic text span).chars = text.toList := by
  unfold synthetic
  split
  next empty => rw [String.isEmpty_iff.mp empty]; rfl
  next => exact List.append_nil _

/-- **Joining fragments joins their texts.** -/
theorem chars_join (separator : String) (span : Span) (fragments : List Fragment) :
    (join separator span fragments).chars =
      separator.toList.intercalate (fragments.map chars) := by
  unfold join List.intercalate
  induction fragments with
  | nil => rfl
  | cons first rest ih =>
    cases rest with
    | nil => simp
    | cons second more =>
      simp only [List.intersperse_cons_cons, List.map_cons, List.flatten_cons, chars_append,
        chars_synthetic] at ih ⊢
      rw [ih]

end Fragment

/-! ### Parts -/

theorem splitPartsFrom_isBare {fragment : Fragment} (bare : fragment.IsBare) (chars : List Char) :
    splitPartsFrom false chars fragment = textPart false false (chars ++ fragment.chars) := by
  induction fragment generalizing chars with
  | nil => rw [Fragment.chars_nil, List.append_nil]; rfl
  | cons piece rest ih =>
    obtain ⟨none, bare⟩ := Fragment.isBare_cons.mp bare
    rw [splitPartsFrom, none]
    show splitPartsFrom false (chars ++ piece.text.toList) rest = _
    rw [ih bare, Fragment.chars_cons, List.append_assoc]

/-- **The content of a trimmed fragment is its text**, also if there is none. -/
theorem ofParts_splitParts_trimDocument {fragment : Fragment} (bare : fragment.IsBare) :
    MessageContent.ofParts (splitParts (trimDocument fragment)) =
      .text (trimDocument fragment).text := by
  have trimmed : (trimDocument fragment).IsBare := Fragment.isBare_trimBy _ _ bare
  have chars : (trimDocument fragment).chars =
      trimEndBy isBlank (trimStartBy isLineFeed fragment.chars) :=
    Fragment.chars_trimBy _ _ bare
  rw [splitParts, splitPartsFrom_isBare trimmed, List.nil_append, Fragment.text_eq, textPart]
  simp only [Bool.false_eq_true, if_false]
  split
  next blank =>
    have empty : (trimDocument fragment).chars = [] := by
      rw [chars] at blank ⊢
      have last := List.rdropWhile_last_not isBlank (trimStartBy isLineFeed fragment.chars)
      by_contra some
      exact last some (List.all_eq_true.mp blank _ (List.getLast_mem some))
    rw [empty]
    rfl
  next => rfl

end PromptMarkup
