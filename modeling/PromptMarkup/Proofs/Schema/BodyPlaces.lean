/-
**Places in the body of a declaration.**

A body that is an expression has a part that is evaluated, and a body in JSON has one for each of
its templates. Every such part stands in the body at the offset that is kept with it.

* `StandsAt`: a text stands in another one at an offset;
* `declaredExpression_standsAt`: the expression that a body is;
* `bodyParts_standsAt`: the templates of a body in JSON.
-/

import Mathlib.Data.List.DropRight
import PromptMarkup.Schema.Declaration

namespace PromptMarkup.Schema

open Text

/-! ### Parts of a text -/

/-- Some characters stand in others behind a number of bytes. -/
def StandsAt (offset : Nat) (inner chars : List Char) : Prop :=
  ∃ front back, chars = front ++ inner ++ back ∧ offset = byteLength front

namespace StandsAt

variable {first second offset : Nat} {inner middle chars : List Char}

/-- What stands in a part of a text stands in the text. -/
theorem trans (here : StandsAt first inner middle) (around : StandsAt second middle chars) :
    StandsAt (second + first) inner chars := by
  obtain ⟨front, back, rfl, rfl⟩ := here
  obtain ⟨before, after, rfl, rfl⟩ := around
  refine ⟨before ++ front, back ++ after, ?_, ?_⟩
  · simp only [List.append_assoc]
  · rw [byteLength_append]

/-- The front of a text stands at its start. -/
theorem of_front (front : inner <+: chars) : StandsAt 0 inner chars := by
  obtain ⟨back, rfl⟩ := front
  exact ⟨[], back, rfl, rfl⟩

/-- The end of a text stands behind as many bytes as it is shorter. -/
theorem of_back (back : inner <:+ chars) :
    StandsAt (byteLength chars - byteLength inner) inner chars := by
  obtain ⟨front, rfl⟩ := back
  refine ⟨front, [], ?_, ?_⟩
  · rw [List.append_nil]
  · rw [byteLength_append, Nat.add_sub_cancel]

end StandsAt

/-! ### Trimming -/

theorem trimStart_back (chars : List Char) : trimStart chars <:+ chars :=
  List.dropWhile_suffix isBlank

theorem trimEndBy_front (drop : Char → Bool) (chars : List Char) :
    trimEndBy drop chars <+: chars := List.rdropWhile_prefix drop chars

/-- A text without the blanks around it stands where the blanks in front of it end. -/
theorem trim_standsAt (chars : List Char) :
    StandsAt (byteLength chars - byteLength (trimStart chars)) (trim chars) chars :=
  (StandsAt.of_front (trimEndBy_front isBlank _)).trans (.of_back (trimStart_back chars))

/-! ### Expressions -/

theorem dropReturn_back (chars : List Char) : dropReturn chars <:+ chars := by
  unfold dropReturn
  split
  next rest found =>
    split
    · rw [eq_append_of_dropPrefix? found]
      exact (trimStart_back rest).trans (List.suffix_append _ rest)
    · exact List.suffix_refl chars
  next => exact List.suffix_refl chars

/-- **The expression that a body is stands in the body at its offset.** -/
theorem declaredExpression_standsAt (body : String) :
    StandsAt (declaredExpression body).2 (declaredExpression body).1.toList body.toList := by
  have ending : (declaredExpression body).1.toList <+: dropReturn (trim body.toList) := by
    unfold declaredExpression
    rw [String.toList_ofList]
    exact (trimEndBy_front _ _).trans ((trimEndBy_front _ _).trans (trimEndBy_front _ _))
  have start := StandsAt.of_back (dropReturn_back (trim body.toList))
  exact ((StandsAt.of_front ending).trans start).trans (trim_standsAt body.toList)

/-! ### Templates -/

theorem eq_append_of_cutTemplate? {chars before inner after : List Char}
    (found : cutTemplate? chars = some (before, inner, after)) :
    chars = before ++ ['\x7b', '\x7b'] ++ (inner ++ ['\x7d', '\x7d'] ++ after) := by
  simp only [cutTemplate?, Option.bind_eq_bind, Option.bind_eq_some_iff] at found
  obtain ⟨⟨front, rest⟩, opened, ⟨middle, tail⟩, closed, same⟩ := found
  cases same
  rw [← eq_append_of_cutAt? closed]
  exact eq_append_of_cutAt? opened

/-- **Every template of a text stands in it** where its range says, the text itself starting at an
offset. -/
theorem bodyPartsFrom_standsAt (offset : Nat) (chars : List Char) :
    ∀ expression span, .template expression span ∈ bodyPartsFrom offset chars →
      ∃ place, StandsAt place expression.toList chars ∧
        span = ⟨offset + place, offset + place + byteLength expression.toList⟩ := by
  -- The induction is on what stands behind the first template.
  fun_induction bodyPartsFrom offset chars with
  | case1 offset chars none =>
    intro expression span member
    cases List.mem_singleton.mp member
  | case2 offset chars before inner after found start ih =>
    have whole := eq_append_of_cutTemplate? found
    have mark : byteLength ['\x7b', '\x7b'] = 2 ∧ byteLength ['\x7d', '\x7d'] = 2 := by decide
    have middle : StandsAt (byteLength before + 2) inner chars := by
      refine ⟨before ++ ['\x7b', '\x7b'], ['\x7d', '\x7d'] ++ after, ?_, ?_⟩
      · rw [whole]
        simp only [List.append_assoc]
      · rw [byteLength_append, mark.1]
    have behind : StandsAt (byteLength before + 2 + byteLength inner + 2) after chars := by
      refine ⟨before ++ ['\x7b', '\x7b'] ++ inner ++ ['\x7d', '\x7d'], [], ?_, ?_⟩
      · rw [whole]
        simp only [List.append_assoc, List.append_nil]
      · simp only [byteLength_append, mark]
    intro expression span member
    rcases List.mem_cons.mp member with absurd | member
    · cases absurd
    rcases List.mem_cons.mp member with here | later
    · cases here
      rw [String.toList_ofList]
      refine ⟨_, (trim_standsAt inner).trans middle, ?_⟩
      simp only [start, Span.mk.injEq]
      omega
    · obtain ⟨place, stands, rfl⟩ := ih expression span later
      refine ⟨_, stands.trans behind, ?_⟩
      simp only [start, Span.mk.injEq]
      omega

/-- **The templates of a body in JSON stand in the body at their ranges.** -/
theorem bodyParts_standsAt {body expression : String} {span : Span}
    (member : .template expression span ∈ bodyParts body) :
    StandsAt span.start expression.toList body.toList ∧
      span.stop = span.start + byteLength expression.toList := by
  obtain ⟨place, stands, rfl⟩ := bodyPartsFrom_standsAt 0 body.toList expression span member
  rw [Nat.zero_add]
  exact ⟨stands, rfl⟩

end PromptMarkup.Schema
