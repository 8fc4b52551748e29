/-
**What a source reads at a range.**

A range of bytes reads a text when both of its ends are boundaries of characters and the text is
what stands between them.

* `Span.Reads`: a source reads a text at a range;
* `Span.Reads.start_isValid`, `Span.Reads.stop_isValid`, `Span.Reads.extract`: the same in terms of
  positions in the UTF-8 form of the source;
* `Span.Reads.append`, `Span.Reads.inside`: readings put together and taken apart;
* `Span.IsIn`: a range at which a source reads anything.
-/

import Mathlib.Data.String.Basic
import PromptMarkup.Source.Span
import PromptMarkup.Text.Cut

namespace PromptMarkup

/-! ### Sizes -/

namespace Text

theorem byteLength_eq_utf8Len (chars : List Char) : byteLength chars = String.utf8Len chars := by
  induction chars with
  | nil => rfl
  | cons first rest ih => rw [byteLength_cons, String.utf8Len_cons, ih, Nat.add_comm]

theorem byteLength_toList (text : String) : byteLength text.toList = text.utf8ByteSize := by
  rw [byteLength_eq_utf8Len, String.utf8Len_toList]

theorem byteLength_pos {chars : List Char} (some : chars ≠ []) : 0 < byteLength chars := by
  cases chars with
  | nil => exact absurd rfl some
  | cons first rest =>
    have := first.utf8Size_pos
    rw [byteLength_cons]
    omega

/-- Two ways to cut a text at the same byte are the same. -/
theorem append_inj_of_byteLength {first second after behind : List Char}
    (same : first ++ after = second ++ behind) (size : byteLength first = byteLength second) :
    first = second ∧ after = behind := by
  rcases List.append_eq_append_iff.mp same with ⟨middle, rfl, rfl⟩ | ⟨middle, rfl, rfl⟩
  all_goals
    have empty : middle = [] := by
      by_contra some
      have := byteLength_pos some
      rw [byteLength_append] at size
      omega
    subst empty
    simp

end Text

/-! ### Readings -/

open Text (byteLength byteLength_append byteLength_toList byteLength_eq_utf8Len)

/-- The source reads a text at a range. -/
def Span.Reads (source : String) (span : Span) (text : String) : Prop :=
  ∃ before after, source.toList = before ++ text.toList ++ after ∧
    span = ⟨byteLength before, byteLength before + byteLength text.toList⟩

namespace Span.Reads

variable {source text : String} {span : Span}

theorem start_le_stop (reads : span.Reads source text) : span.start ≤ span.stop := by
  obtain ⟨before, after, _, rfl⟩ := reads
  exact Nat.le_add_right _ _

theorem stop_eq (reads : span.Reads source text) :
    span.stop = span.start + byteLength text.toList := by
  obtain ⟨before, after, _, rfl⟩ := reads
  rfl

theorem start_isValid (reads : span.Reads source text) :
    (⟨span.start⟩ : String.Pos.Raw).IsValid source := by
  obtain ⟨before, after, whole, rfl⟩ := reads
  refine String.Pos.Raw.isValid_iff_exists_append.mpr
    ⟨String.ofList before, text ++ String.ofList after, String.toList_injective ?_, ?_⟩
  · rw [whole]
    simp
  · rw [String.rawEndPos_ofList, byteLength_eq_utf8Len]

theorem stop_isValid (reads : span.Reads source text) :
    (⟨span.stop⟩ : String.Pos.Raw).IsValid source := by
  obtain ⟨before, after, whole, rfl⟩ := reads
  refine String.Pos.Raw.isValid_iff_exists_append.mpr
    ⟨String.ofList (before ++ text.toList), String.ofList after, String.toList_injective ?_, ?_⟩
  · rw [whole]
    simp
  · rw [String.rawEndPos_ofList, ← byteLength_eq_utf8Len, byteLength_append]

/-- Between two characters, and at either end, the source reads the empty text. -/
theorem empty {offset : Nat} (valid : (⟨offset⟩ : String.Pos.Raw).IsValid source) :
    (⟨offset, offset⟩ : Span).Reads source "" := by
  obtain ⟨before, after, rfl, place⟩ := String.Pos.Raw.isValid_iff_exists_append.mp valid
  have size : offset = byteLength before.toList := by
    rw [byteLength_toList]
    exact congrArg String.Pos.Raw.byteIdx place
  refine ⟨before.toList, after.toList, ?_, ?_⟩
  · rw [String.toList_append]
    simp
  · rw [size]
    rfl

/-- **A reading is the slice of the source at its range.** -/
theorem extract (reads : span.Reads source text) :
    String.Pos.Raw.extract source ⟨span.start⟩ ⟨span.stop⟩ = text := by
  obtain ⟨before, after, whole, rfl⟩ := reads
  have slice := String.extract_of_valid before text.toList after
  rw [← whole, String.ofList_toList, String.ofList_toList, ← byteLength_eq_utf8Len,
    ← byteLength_eq_utf8Len] at slice
  exact slice

/-- Between two boundaries of characters in order a source reads its slice there. -/
theorem of_isValid (start : (⟨span.start⟩ : String.Pos.Raw).IsValid source)
    (stop : (⟨span.stop⟩ : String.Pos.Raw).IsValid source) (ordered : span.start ≤ span.stop) :
    span.Reads source (String.Pos.Raw.extract source ⟨span.start⟩ ⟨span.stop⟩) := by
  obtain ⟨before, after, rfl, place⟩ := String.Pos.Raw.isValid_iff_exists_append.mp start
  obtain ⟨front, back, same, spot⟩ := String.Pos.Raw.isValid_iff_exists_append.mp stop
  have first : span.start = byteLength before.toList := by
    rw [byteLength_toList]
    exact congrArg String.Pos.Raw.byteIdx place
  have last : span.stop = byteLength front.toList := by
    rw [byteLength_toList]
    exact congrArg String.Pos.Raw.byteIdx spot
  have whole : before.toList ++ after.toList = front.toList ++ back.toList := by
    rw [← String.toList_append, same, String.toList_append]
  obtain ⟨middle, cut, rest⟩ : ∃ middle, front.toList = before.toList ++ middle ∧
      after.toList = middle ++ back.toList := by
    rcases List.append_eq_append_iff.mp whole with ⟨middle, cut, rest⟩ | ⟨middle, cut, rest⟩
    · exact ⟨middle, cut, rest⟩
    · have empty : middle = [] := by
        by_contra some
        have := Text.byteLength_pos some
        rw [cut, byteLength_append] at first
        omega
      subst empty
      exact ⟨[], by rw [cut, List.append_nil, List.append_nil], by rw [rest, List.nil_append]; rfl⟩
  have reads : span.Reads (before ++ after) (String.ofList middle) := by
    refine ⟨before.toList, back.toList, ?_, ?_⟩
    · rw [String.toList_append, rest, String.toList_ofList, List.append_assoc]
    · rw [cut, byteLength_append, ← first] at last
      rw [String.toList_ofList, ← first, ← last]
  rwa [reads.extract]

/-- Readings one behind the other are a reading. -/
theorem append {start middle stop : Nat} {first second : String}
    (left : (⟨start, middle⟩ : Span).Reads source first)
    (right : (⟨middle, stop⟩ : Span).Reads source second) :
    (⟨start, stop⟩ : Span).Reads source (first ++ second) := by
  obtain ⟨before, after, whole, place⟩ := left
  obtain ⟨ahead, behind, again, spot⟩ := right
  simp only [Span.mk.injEq] at place spot
  have cut : before ++ first.toList = ahead ∧ after = second.toList ++ behind := by
    refine Text.append_inj_of_byteLength ?_ ?_
    · rw [← whole, again, List.append_assoc]
    · rw [byteLength_append]
      omega
  refine ⟨before, behind, ?_, ?_⟩
  · rw [whole, cut.2, String.toList_append]
    simp only [List.append_assoc]
  · rw [String.toList_append, byteLength_append, ← place.1, Span.mk.injEq]
    omega

/-- A part of what a source reads at a range is what it reads at a part of the range. -/
theorem inside (reads : span.Reads source text) {front middle back : List Char}
    (parts : text.toList = front ++ middle ++ back) :
    (⟨span.start + byteLength front, span.start + byteLength front + byteLength middle⟩ :
      Span).Reads source (String.ofList middle) := by
  obtain ⟨before, after, whole, rfl⟩ := reads
  refine ⟨before ++ front, back ++ after, ?_, ?_⟩
  · rw [whole, parts, String.toList_ofList]
    simp only [List.append_assoc]
  · rw [byteLength_append, String.toList_ofList]

end Span.Reads

/-! ### Ranges -/

/-- A range lies in a source, and both of its ends are boundaries of characters. -/
def Span.IsIn (source : String) (span : Span) : Prop := ∃ text, span.Reads source text

namespace Span.IsIn

variable {source : String} {span : Span}

theorem of_isValid (start : (⟨span.start⟩ : String.Pos.Raw).IsValid source)
    (stop : (⟨span.stop⟩ : String.Pos.Raw).IsValid source) (ordered : span.start ≤ span.stop) :
    span.IsIn source := ⟨_, .of_isValid start stop ordered⟩

end Span.IsIn

end PromptMarkup
