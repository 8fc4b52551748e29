/-
**Markers of lists.**

The markers of a list in letters count its items: `a` to `z` stand for one to twenty-six, and there
is no zero. Since no letter is worth nothing, a longer marker is worth more than a shorter one, and
of two markers of one length the later one in the alphabet is worth more.

* `latinValue`: the number that letters denote;
* `latinValue_latinNumeral`: the letters of a number denote it;
* `latinValue_lt_of_shortlex`: letters that come later denote more;
* `layItems_getElem?`: the item at a position stands behind the marker of that position;
* `latinMarkers_count`: the markers of a list in letters are apart and in order.
-/

import Mathlib.Data.List.Shortlex
import PromptMarkup.Output.Layout

namespace PromptMarkup

/-! ### Letters as digits -/

/-- What a small letter is worth: `a` is one, and `z` is twenty-six. -/
def latinDigit (letter : Char) : Nat := letter.toNat - 'a'.toNat + 1

/-- The number that is written by letters behind a number. -/
def latinValueFrom (front : Nat) (letters : List Char) : Nat :=
  letters.foldl (fun value letter => value * 26 + latinDigit letter) front

/-- The number that letters denote in base twenty-six without a zero. -/
def latinValue (letters : List Char) : Nat := latinValueFrom 0 letters

/-- A small letter of the basic alphabet. -/
def IsLatin (letter : Char) : Prop := 'a' ≤ letter ∧ letter ≤ 'z'

@[simp] theorem latinValueFrom_nil (front : Nat) : latinValueFrom front [] = front := rfl

@[simp] theorem latinValueFrom_cons (front : Nat) (letter : Char) (rest : List Char) :
    latinValueFrom front (letter :: rest) = latinValueFrom (front * 26 + latinDigit letter) rest :=
  rfl

@[simp] theorem latinValueFrom_append (front : Nat) (first second : List Char) :
    latinValueFrom front (first ++ second) =
      latinValueFrom (latinValueFrom front first) second := List.foldl_append

theorem latinDigit_pos (letter : Char) : 0 < latinDigit letter := Nat.succ_pos _

theorem latinDigit_le {letter : Char} (latin : IsLatin letter) : latinDigit letter ≤ 26 := by
  have last : letter.toNat ≤ 'z'.toNat := latin.2
  have first : 'a'.toNat ≤ letter.toNat := latin.1
  have size : 'z'.toNat = 'a'.toNat + 25 := rfl
  unfold latinDigit
  omega

theorem latinDigit_lt {first second : Char} (latin : IsLatin first) (less : first < second) :
    latinDigit first < latinDigit second := by
  have start : 'a'.toNat ≤ first.toNat := latin.1
  have less : first.toNat < second.toNat := less
  unfold latinDigit
  omega

/-! ### The letters of a number -/

/-- The letters are those of the remainders below twenty-six. -/
theorem latinDigit_ofNat : ∀ rest < 26,
    IsLatin (Char.ofNat ('a'.toNat + rest)) ∧
      latinDigit (Char.ofNat ('a'.toNat + rest)) = rest + 1 := by
  unfold IsLatin
  decide

/-- **The letters of a number denote it.** What is divided off first is the last letter, and it is
worth one more than the remainder of the number below. -/
theorem latinValue_latinNumeral (number : Nat) :
    (∀ letter ∈ (latinNumeral number).toList, IsLatin letter) ∧
      latinValue (latinNumeral number).toList = number := by
  unfold latinNumeral
  rw [String.toList_ofList]
  fun_induction reversedLatinLetters number with
  | case1 =>
    refine ⟨fun _ member => ?_, rfl⟩
    cases member
  | case2 rest ih =>
    obtain ⟨latin, value⟩ := ih
    obtain ⟨letter, digit⟩ := latinDigit_ofNat (rest % 26) (Nat.mod_lt rest (by decide))
    rw [List.reverse_cons]
    refine ⟨List.forall_mem_append.mpr ⟨latin, List.forall_mem_singleton.mpr letter⟩, ?_⟩
    unfold latinValue at value ⊢
    rw [latinValueFrom_append, value, latinValueFrom_cons, latinValueFrom_nil, digit]
    omega

theorem latinNumeral_injective : Function.Injective latinNumeral := by
  intro first second same
  rw [← (latinValue_latinNumeral first).2, same, (latinValue_latinNumeral second).2]

/-! ### Order -/

/-- Behind a smaller number as many letters write a smaller number. -/
theorem latinValueFrom_lt {less more : Nat} (lt : less < more) {first second : List Char}
    (latin : ∀ letter ∈ first, IsLatin letter) (size : first.length = second.length) :
    latinValueFrom less first < latinValueFrom more second := by
  induction first generalizing second less more with
  | nil =>
    obtain rfl := List.eq_nil_of_length_eq_zero size.symm
    exact lt
  | cons letter rest ih =>
    obtain ⟨here, later⟩ := List.forall_mem_cons.mp latin
    obtain ⟨other, others, rfl⟩ := List.exists_cons_of_length_eq_add_one size.symm
    have most := latinDigit_le here
    have least := latinDigit_pos other
    have step : less * 26 + latinDigit letter < more * 26 + latinDigit other := by omega
    exact ih step later (by simpa using size)

/-- Letters behind a number do not make it smaller. -/
theorem le_latinValueFrom (front : Nat) (letters : List Char) :
    front ≤ latinValueFrom front letters := by
  induction letters generalizing front with
  | nil => exact Nat.le_refl front
  | cons letter rest ih =>
    have later := ih (front * 26 + latinDigit letter)
    rw [latinValueFrom_cons]
    omega

/-- No letter is worth nothing. -/
theorem latinValue_pos {letters : List Char} (some : letters ≠ []) : 0 < latinValue letters := by
  obtain ⟨letter, rest, rfl⟩ := List.exists_cons_of_ne_nil some
  have digit := latinDigit_pos letter
  have later := le_latinValueFrom (0 * 26 + latinDigit letter) rest
  unfold latinValue
  rw [latinValueFrom_cons]
  omega

/-- Letters that come earlier in the alphabet are worth less than as many others. -/
theorem latinValueFrom_lt_of_lex (front : Nat) {first second : List Char}
    (latin : ∀ letter ∈ first, IsLatin letter) (size : first.length = second.length)
    (less : List.Lex (· < ·) first second) :
    latinValueFrom front first < latinValueFrom front second := by
  induction less generalizing front with
  | nil => cases size
  | cons _ ih => exact ih _ (List.forall_mem_cons.mp latin).2 (by simpa using size)
  | @rel one rest other others less =>
    obtain ⟨here, later⟩ := List.forall_mem_cons.mp latin
    have step : front * 26 + latinDigit one < front * 26 + latinDigit other :=
      Nat.add_lt_add_left (latinDigit_lt here less) _
    exact latinValueFrom_lt step later (by simpa using size)

/-- **Letters that come later denote more**: more letters, or as many that are later in the
alphabet. -/
theorem latinValue_lt_of_shortlex {first second : List Char}
    (latin : ∀ letter ∈ first, IsLatin letter) (less : List.Shortlex (· < ·) first second) :
    latinValue first < latinValue second := by
  rcases List.shortlex_def.mp less with shorter | ⟨size, lex⟩
  · -- the letters in front of the last ones are worth something, and those are as many as `first`
    have cut := List.take_append_drop (second.length - first.length) second
    have some : second.take (second.length - first.length) ≠ [] := by
      rw [← List.length_pos_iff, List.length_take]
      omega
    unfold latinValue
    rw [← cut, latinValueFrom_append]
    refine latinValueFrom_lt (latinValue_pos some) latin ?_
    rw [List.length_drop]
    omega
  · exact latinValueFrom_lt_of_lex 0 latin size lex

/-- **A greater number comes later.** -/
theorem lt_iff_shortlex_latinNumeral (first second : Nat) :
    first < second ↔
      List.Shortlex (· < ·) (latinNumeral first).toList (latinNumeral second).toList := by
  have ofShortlex : ∀ {less more : Nat},
      List.Shortlex (· < ·) (latinNumeral less).toList (latinNumeral more).toList →
        less < more := by
    intro less more before
    obtain ⟨latin, value⟩ := latinValue_latinNumeral less
    rw [← value, ← (latinValue_latinNumeral more).2]
    exact latinValue_lt_of_shortlex latin before
  refine ⟨fun less => ?_, ofShortlex⟩
  by_contra before
  by_cases after : List.Shortlex (· < ·) (latinNumeral second).toList (latinNumeral first).toList
  · exact Nat.lt_asymm less (ofShortlex after)
  · have same := List.Shortlex.trichotomous.trichotomous _ _ before after
    exact Nat.ne_of_lt less (latinNumeral_injective (String.toList_injective same))

/-! ### Markers -/

/-- The same behind both does not change the order of texts. -/
theorem shortlex_append_iff {first second : List Char} (behind : List Char) :
    List.Shortlex (· < ·) (first ++ behind) (second ++ behind) ↔
      List.Shortlex (· < ·) first second := by
  rw [List.shortlex_def, List.shortlex_def, List.length_append, List.length_append]
  refine or_congr Nat.add_lt_add_iff_right
    ((and_congr_left' Nat.add_right_cancel_iff).trans (and_congr_right fun size => ?_))
  induction first generalizing second with
  | nil =>
    obtain rfl := List.eq_nil_of_length_eq_zero size.symm
    simp
  | cons letter rest ih =>
    obtain ⟨other, others, rfl⟩ := List.exists_cons_of_length_eq_add_one size.symm
    rw [List.cons_append, List.cons_append, List.cons_lex_cons_iff, List.cons_lex_cons_iff,
      ih (by simpa using size)]

/-- **The item at a position stands behind the marker of that position.** -/
theorem layItems_getElem? (style : ListStyle) (start : Nat) (items : List Laid) (index : Nat) :
    (layItems style start items)[index]? = items[index]?.map fun item =>
      Fragment.synthetic (style.marker (start + index)) item.span ++
        item.fragment.indent
          (String.ofList (List.replicate (style.marker (start + index)).length ' ')) item.span := by
  induction items generalizing start index with
  | nil => rfl
  | cons item rest ih =>
    rw [layItems]
    cases index with
    | zero => rfl
    | succ index =>
      rw [List.getElem?_cons_succ, List.getElem?_cons_succ, ih, Nat.add_right_comm, Nat.add_assoc]

theorem toList_latinMarker (index : Nat) :
    (ListStyle.latin.marker index).toList = (latinNumeral (index + 1)).toList ++ ['.', ' '] :=
  String.toList_append

theorem lt_iff_shortlex_latinMarker (first second : Nat) :
    first < second ↔ List.Shortlex (· < ·) (ListStyle.latin.marker first).toList
      (ListStyle.latin.marker second).toList := by
  rw [toList_latinMarker, toList_latinMarker, shortlex_append_iff, ← lt_iff_shortlex_latinNumeral,
    Nat.add_lt_add_iff_right]

/-- **Markers in letters count.** The letters of every number denote it. The items of a list, of any
length, stand behind the markers of their positions in a row; these are different, and in order by
length and then by the alphabet. -/
theorem latinMarkers_count :
    (∀ number, (∀ letter ∈ (latinNumeral number).toList, IsLatin letter) ∧
        latinValue (latinNumeral number).toList = number) ∧
      (∀ (items : List Laid) (index : Nat),
        (layItems .latin 0 items)[index]? = items[index]?.map fun item =>
          Fragment.synthetic (latinNumeral (index + 1) ++ ". ") item.span ++
            item.fragment.indent
              (String.ofList (List.replicate (latinNumeral (index + 1) ++ ". ").length ' '))
              item.span) ∧
      Function.Injective ListStyle.latin.marker ∧
      ∀ first second, first < second ↔ List.Shortlex (· < ·)
        (ListStyle.latin.marker first).toList (ListStyle.latin.marker second).toList := by
  refine ⟨latinValue_latinNumeral, fun items index => ?_, fun first second same => ?_,
    lt_iff_shortlex_latinMarker⟩
  · have laid := layItems_getElem? .latin 0 items index
    rwa [Nat.zero_add] at laid
  · have texts := congrArg String.toList same
    rw [toList_latinMarker, toList_latinMarker] at texts
    have letters := String.toList_injective (List.append_cancel_right texts)
    exact Nat.succ.inj (latinNumeral_injective letters)

example : [0, 25, 26, 701, 702].map ListStyle.latin.marker =
    ["a. ", "z. ", "aa. ", "zz. ", "aaa. "] := by cbv

end PromptMarkup
