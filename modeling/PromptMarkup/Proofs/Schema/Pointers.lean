/-
**JSON pointers.**

A pointer is read by cutting it at its slashes and undoing what stands for a slash and for a tilde.
So the pointers that are spelled along names are read as these names, whatever characters they have.
The pointer to the whole document is empty and is shown as a slash, which is the pointer to the
member without a name; no other two pointers are shown alike.

* `unescape`, `tokens?`: the names that a pointer goes along;
* `spell`, `tokens_spell`: the pointer along some names, which is read as these names;
* `shownTokens?`, `shown_spell_inj`: pointers as they are shown;
* `Json.part?`: the part of a value that some names lead to.
-/

import PromptMarkup.Schema.Validation

namespace PromptMarkup

namespace Schema

/-! ### Names in a pointer -/

/-- A name without what stands for a slash and for a tilde in a pointer. -/
def unescape : List Char → List Char
  | '~' :: '0' :: rest => '~' :: unescape rest
  | '~' :: '1' :: rest => '/' :: unescape rest
  | char :: rest => char :: unescape rest
  | [] => []

/-- A name as it stands in a pointer. -/
def escape : List Char → List Char
  | [] => []
  | char :: rest =>
    (if char = '~' then ['~', '0'] else if char = '/' then ['~', '1'] else [char]) ++ escape rest

theorem slash_not_mem_escape (name : List Char) : '/' ∉ escape name := by
  induction name with
  | nil => exact List.not_mem_nil
  | cons char rest ih =>
    rw [escape, List.mem_append, not_or]
    refine ⟨?_, ih⟩
    split
    · decide
    · split
      · decide
      next other => simpa using Ne.symm other

theorem unescape_escape (name : List Char) : unescape (escape name) = name := by
  induction name with
  | nil => rfl
  | cons char rest ih =>
    rw [escape]
    split
    next tilde =>
      subst tilde
      exact congrArg ('~' :: ·) ih
    next plain =>
      split
      next slash =>
        subst slash
        exact congrArg ('/' :: ·) ih
      next =>
        have step : unescape (char :: escape rest) = char :: unescape (escape rest) := by
          rw [unescape]
          · exact fun _ same => absurd same plain
          · exact fun _ same => absurd same plain
        exact step.trans (congrArg (char :: ·) ih)

theorem toList_pointer (path name : String) :
    (pointer path name).toList = path.toList ++ '/' :: escape name.toList := by
  have escaped : ∀ chars : List Char, (chars.flatMap fun char =>
      if char = '~' then "~0".toList else [char]).flatMap (fun char =>
        if char = '/' then "~1".toList else [char]) = escape chars := by
    intro chars
    induction chars with
    | nil => rfl
    | cons char rest ih =>
      rw [List.flatMap_cons, List.flatMap_append, ih, escape]
      by_cases tilde : char = '~'
      · subst tilde
        rfl
      · by_cases slash : char = '/'
        · subst slash
          rfl
        · simp [tilde, slash]
  have replaced : (Text.replaceChar '/' "~1" (Text.replaceChar '~' "~0" name)).toList =
      escape name.toList := by
    simp only [Text.replaceChar, String.toList_ofList, escaped]
  rw [pointer, String.toList_append, String.toList_append, replaced]
  exact List.append_assoc _ ['/'] _

/-! ### Whole pointers -/

/-- The names that a pointer goes along. -/
def tokens? (path : String) : Option (List String) :=
  match path.toList.splitOn '/' with
  | [] :: tokens => some (tokens.map fun token => String.ofList (unescape token))
  | _ => none

/-- The pointer along some names. -/
def spell (tokens : List String) : String := tokens.foldl pointer ""

theorem toList_foldl_pointer (tokens : List String) (path : String) :
    (tokens.foldl pointer path).toList =
      ['/'].intercalate (path.toList :: tokens.map fun token => escape token.toList) := by
  induction tokens generalizing path with
  | nil => simp [List.intercalate]
  | cons token rest ih =>
    rw [List.foldl_cons, ih, toList_pointer, List.map_cons, List.intercalate_cons_cons]
    cases rest with
    | nil => simp [List.intercalate]
    | cons second others =>
      rw [List.map_cons, List.intercalate_cons_cons, List.intercalate_cons_cons]
      simp

/-- **A pointer that is spelled along some names is read as these names.** -/
theorem tokens_spell (tokens : List String) : tokens? (spell tokens) = some tokens := by
  have free : ∀ piece ∈ [] :: tokens.map fun token => escape token.toList, '/' ∉ piece := by
    intro piece member
    rcases List.mem_cons.mp member with rfl | member
    · exact List.not_mem_nil
    · obtain ⟨token, -, rfl⟩ := List.mem_map.mp member
      exact slash_not_mem_escape token.toList
  have cut : (spell tokens).toList.splitOn '/' =
      [] :: tokens.map fun token => escape token.toList := by
    rw [spell, toList_foldl_pointer, String.toList_empty]
    exact List.splitOn_intercalate '/' free (List.cons_ne_nil _ _)
  rw [tokens?, cut]
  simp only [List.map_map, Function.comp_def, unescape_escape, String.ofList_toList, List.map_id']

theorem spell_inj {tokens others : List String} (same : spell tokens = spell others) :
    tokens = others := by
  have read := tokens_spell tokens
  rw [same, tokens_spell] at read
  exact (Option.some.inj read).symm

/-! ### Pointers as they are shown -/

/-- The names that a pointer goes along, where a slash is the pointer to the whole document. -/
def shownTokens? (path : String) : Option (List String) :=
  if path = "/" then some [] else tokens? path

theorem shownPointer_eq (tokens : List String) :
    shownPointer (spell tokens) = spell (if tokens = [] then [""] else tokens) := by
  cases tokens with
  | nil => rfl
  | cons token rest =>
    have visible : spell (token :: rest) ≠ "" := fun empty =>
      List.cons_ne_nil token rest (spell_inj empty)
    rw [shownPointer, if_neg (by simpa using visible), if_neg (List.cons_ne_nil token rest)]

/-- **A pointer that is shown is read as the names that it has been spelled along**, unless these
are the one name without characters. -/
theorem shownTokens_spell {tokens : List String} (other : tokens ≠ [""]) :
    shownTokens? (shownPointer (spell tokens)) = some tokens := by
  by_cases root : tokens = []
  · subst root
    rfl
  · have apart : spell tokens ≠ "/" := fun same => other (spell_inj same)
    rw [shownPointer_eq, if_neg root, shownTokens?, if_neg apart, tokens_spell]

/-- **Only the whole document and the member without a name are shown alike.** -/
theorem shown_spell_inj {tokens others : List String} (different : tokens ≠ others)
    (same : shownPointer (spell tokens) = shownPointer (spell others)) :
    tokens = [] ∧ others = [""] ∨ tokens = [""] ∧ others = [] := by
  rw [shownPointer_eq, shownPointer_eq] at same
  have equal := spell_inj same
  by_cases first : tokens = []
  · by_cases second : others = []
    · exact absurd (first.trans second.symm) different
    · rw [if_pos first, if_neg second] at equal
      exact .inl ⟨first, equal.symm⟩
  · by_cases second : others = []
    · rw [if_neg first, if_pos second] at equal
      exact .inr ⟨equal, second⟩
    · rw [if_neg first, if_neg second] at equal
      exact absurd equal different

end Schema

/-! ### Parts of a value -/

namespace Json

/-- The number that a name is in decimal, without zeros in front. -/
def index? (token : String) : Option Nat :=
  let number := Nat.ofDigitChars 10 token.toList 0
  if toString number = token then some number else none

theorem index_toString (number : Nat) : index? (toString number) = some number := by
  have read : Nat.ofDigitChars 10 (toString number).toList 0 = number := by
    rw [Nat.toString_eq_repr, Nat.toList_repr, Nat.ofDigitChars_ten_toDigits]
  rw [index?, read, if_pos rfl]

/-- The member of an object of that name, or the item of an array of that number. -/
def child? (value : Json) (token : String) : Option Json :=
  match value with
  | .object members => members.lookup token
  | .array items => (index? token).bind (items[·]?)
  | _ => none

/-- The part of a value that some names lead to. -/
def part? (value : Json) : List String → Option Json
  | [] => some value
  | token :: rest => (value.child? token).bind (·.part? rest)

theorem child?_item {items : List Json} {index : Nat} {item : Json}
    (here : items[index]? = some item) :
    (Json.array items).child? (toString index) = some item := by
  rw [child?, index_toString, Option.bind_some, here]

theorem part?_cons {value child part : Json} {token : String} {rest : List String}
    (first : value.child? token = some child) (later : child.part? rest = some part) :
    value.part? (token :: rest) = some part := by
  rw [part?, first, Option.bind_some, later]

theorem part?_concat {value parent child : Json} {rest : List String} {token : String}
    (first : value.part? rest = some parent) (last : parent.child? token = some child) :
    value.part? (rest ++ [token]) = some child := by
  induction rest generalizing value with
  | nil =>
    cases first
    exact part?_cons last rfl
  | cons name rest ih =>
    obtain ⟨next, step, later⟩ := Option.bind_eq_some_iff.mp first
    exact part?_cons step (ih later)

end Json

end PromptMarkup
