/-
**Cutting lists of characters.**

Scanners of this library walk lists of characters and hand back what they read together with what
is left. Positions are byte offsets into the UTF-8 form of the text.

* `byteLength`: the number of bytes that characters take;
* `cutWhere`: the text before the first place where a test on the remaining text holds, and the
  text from there on; `cutWhere_append` says that nothing is lost;
* `cutWhile`: the longest front part of characters that are kept, with `cutWhile_of_all` for where it
  ends;
* `cutAt?`: the text before and after the first occurrence of a pattern;
* `splitOn`, `replaceFirst`, `replaceAll`: pieces between patterns, and other text in their place;
* `slice`: the characters between two byte offsets.
-/

namespace PromptMarkup.Text

/-! ## Bytes -/

/-- The number of bytes of the UTF-8 form of some characters. -/
def byteLength : List Char → Nat
  | [] => 0
  | first :: rest => first.utf8Size + byteLength rest

@[simp] theorem byteLength_nil : byteLength [] = 0 := rfl

@[simp] theorem byteLength_cons (first : Char) (rest : List Char) :
    byteLength (first :: rest) = first.utf8Size + byteLength rest := rfl

@[simp] theorem byteLength_append (before after : List Char) :
    byteLength (before ++ after) = byteLength before + byteLength after := by
  induction before with
  | nil => simp
  | cons first rest ih => simp [ih, Nat.add_assoc]

/-- The characters from a byte offset on; none when the offset is inside a character or past the
end. -/
def dropBytes? : Nat → List Char → Option (List Char)
  | 0, chars => some chars
  | _ + 1, [] => none
  | count + 1, first :: rest =>
    if first.utf8Size ≤ count + 1 then dropBytes? (count + 1 - first.utf8Size) rest else none

/-- The characters of the first `count` bytes; none when they end inside a character or past the
end. -/
def takeBytes? : Nat → List Char → Option (List Char)
  | 0, _ => some []
  | _ + 1, [] => none
  | count + 1, first :: rest =>
    if first.utf8Size ≤ count + 1 then
      (takeBytes? (count + 1 - first.utf8Size) rest).map (first :: ·)
    else none

/-- The characters between two byte offsets; none unless both are character boundaries in order. -/
def slice? (chars : List Char) (start stop : Nat) : Option (List Char) :=
  if start ≤ stop then (dropBytes? start chars).bind (takeBytes? (stop - start)) else none

/-! ## Cutting -/

/-- The text before the first place where `stop` accepts the remaining text, and the text from
there on. At the end of the text the second part is empty. -/
def cutWhere (stop : List Char → Bool) : List Char → List Char × List Char
  | [] => ([], [])
  | chars@(first :: rest) =>
    if stop chars then ([], chars)
    else
      let (before, after) := cutWhere stop rest
      (first :: before, after)

/-- The longest front part whose characters all satisfy `keep`, and the rest. -/
def cutWhile (keep : Char → Bool) (chars : List Char) : List Char × List Char :=
  (chars.takeWhile keep, chars.dropWhile keep)

theorem cutWhere_append (stop : List Char → Bool) (chars : List Char) :
    (cutWhere stop chars).1 ++ (cutWhere stop chars).2 = chars := by
  induction chars with
  | nil => rfl
  | cons first rest ih =>
    by_cases here : stop (first :: rest)
    · simp [cutWhere, here]
    · simp [cutWhere, here, ih]

theorem cutWhile_append (keep : Char → Bool) (chars : List Char) :
    (cutWhile keep chars).1 ++ (cutWhile keep chars).2 = chars :=
  List.takeWhile_append_dropWhile

/-- What is kept is taken in front of something that is not. -/
theorem takeWhile_of_all {α : Type} {keep : α → Bool} {front rest : List α}
    (all : ∀ item ∈ front, keep item = true) (ends : ∀ item ∈ rest.head?, keep item = false) :
    (front ++ rest).takeWhile keep = front ∧ (front ++ rest).dropWhile keep = rest := by
  rw [List.takeWhile_append_of_pos all, List.dropWhile_append_of_pos all]
  cases rest with
  | nil => simp
  | cons first rest => simp [ends first rfl]

theorem cutWhile_of_all {keep : Char → Bool} (front : List Char) {rest : List Char}
    (all : ∀ char ∈ front, keep char = true) (ends : ∀ char ∈ rest.head?, keep char = false) :
    cutWhile keep (front ++ rest) = (front, rest) :=
  Prod.ext (takeWhile_of_all all ends).1 (takeWhile_of_all all ends).2

theorem length_cutWhere_le (stop : List Char → Bool) (chars : List Char) :
    (cutWhere stop chars).2.length ≤ chars.length := by
  have whole := congrArg List.length (cutWhere_append stop chars)
  simp only [List.length_append] at whole
  omega

theorem length_cutWhile_le (keep : Char → Bool) (chars : List Char) :
    (cutWhile keep chars).2.length ≤ chars.length := by
  have whole := congrArg List.length (cutWhile_append keep chars)
  simp only [List.length_append] at whole
  omega

/-- The text after `pattern`, if `chars` begins with it. -/
def dropPrefix? : List Char → List Char → Option (List Char)
  | [], chars => some chars
  | _ :: _, [] => none
  | expected :: pattern, first :: rest =>
    if expected = first then dropPrefix? pattern rest else none

theorem dropPrefix?_append (pattern rest : List Char) :
    dropPrefix? pattern (pattern ++ rest) = some rest := by
  induction pattern with
  | nil => rfl
  | cons first pattern ih => simpa [dropPrefix?] using ih

theorem eq_append_of_dropPrefix? {pattern chars rest : List Char}
    (found : dropPrefix? pattern chars = some rest) : chars = pattern ++ rest := by
  induction pattern generalizing chars with
  | nil => simpa [dropPrefix?] using found
  | cons expected pattern ih =>
    cases chars with
    | nil => simp [dropPrefix?] at found
    | cons first tail =>
      by_cases same : expected = first
      · simp only [dropPrefix?, same, if_true] at found
        simp [same, ih found]
      · simp [dropPrefix?, same] at found

/-- The text before and after the first occurrence of `pattern`. -/
def cutAt? (pattern chars : List Char) : Option (List Char × List Char) :=
  let (before, rest) := cutWhere pattern.isPrefixOf chars
  (dropPrefix? pattern rest).map (before, ·)

theorem eq_append_of_cutAt? {pattern chars before after : List Char}
    (found : cutAt? pattern chars = some (before, after)) : chars = before ++ pattern ++ after := by
  simp only [cutAt?, Option.map_eq_some_iff] at found
  obtain ⟨rest, cut, same⟩ := found
  cases same
  rw [List.append_assoc, ← eq_append_of_dropPrefix? cut, cutWhere_append]

/-! ## Patterns -/

/-- A piece with one more character in front of its first part. -/
def pushFront (char : Char) : List (List Char) → List (List Char)
  | [] => [[char]]
  | piece :: pieces => (char :: piece) :: pieces

/-- The pieces between the occurrences of a pattern that is not empty; the first `skip` characters
belong to an occurrence found before. -/
def splitFrom (pattern : List Char) (skip : Nat) : List Char → List (List Char)
  | [] => [[]]
  | char :: rest =>
    if 0 < skip then splitFrom pattern (skip - 1) rest
    else if pattern.isPrefixOf (char :: rest) then
      [] :: splitFrom pattern (pattern.length - 1) rest
    else pushFront char (splitFrom pattern 0 rest)

/-- The pieces between the occurrences of a pattern that is not empty. -/
def splitOn (pattern chars : List Char) : List (List Char) := splitFrom pattern 0 chars

/-- The text with the first occurrence of a pattern replaced. -/
def replaceFirst (pattern replacement chars : List Char) : List Char :=
  match cutAt? pattern chars with
  | some (before, after) => before ++ replacement ++ after
  | none => chars

/-- The text with every occurrence of a pattern replaced. The empty pattern occurs in front of
every character and at the end. -/
def replaceAll (pattern replacement chars : List Char) : List Char :=
  if pattern.isEmpty then replacement ++ chars.flatMap fun char => char :: replacement
  else replacement.intercalate (splitOn pattern chars)

/-- The pattern occurs in the text. -/
def hasPattern (pattern chars : List Char) : Bool := (cutAt? pattern chars).isSome

/-- A string with every occurrence of a character replaced. -/
def replaceChar (mark : Char) (replacement text : String) : String :=
  String.ofList (text.toList.flatMap fun char =>
    if char = mark then replacement.toList else [char])

end PromptMarkup.Text
