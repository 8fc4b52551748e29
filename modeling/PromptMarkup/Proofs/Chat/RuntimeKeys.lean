/-
**Keys of runtime parameters.**

A document spells the key of a runtime parameter as words with hyphens between them. It is kept in
camel case, where a capital begins every word but the first, and it is written into a request in
snake case. An underscore comes in front of a capital only behind a small letter or a digit, so a
word that is a single capital runs into the word behind it.

* `KeyWord`, `KebabKey`: words of small letters and digits, with hyphens between them;
* `toList_camelCase`, `markWords_flatMap`: a key in camel case, and where its words are told apart;
* `toList_snakeCase`: the key that comes back;
* `snakeCase_camelCase_iff`: it has an underscore for every hyphen exactly when each word between
  the first and the last has at least two characters.
-/

import PromptMarkup.Proofs.Markup.LiteralBody

namespace PromptMarkup

/-! ### Letters -/

namespace Text

/-- What holds of each character of the basic alphabet. -/
theorem forall_ascii (holds : Char → Prop) (each : ∀ code < 128, holds (Char.ofNat code))
    {char : Char} (ascii : char.toNat < 128) : holds char := by
  have same := each char.toNat ascii
  rwa [Char.ofNat_toNat] at same

/-- The small form of a text of the basic alphabet is that of its characters. -/
theorem toLower_of_ascii {chars : List Char} (ascii : ∀ char ∈ chars, char.toNat < 128) :
    toLower chars = chars.map Char.toLower := by
  suffices after : ∀ before, toLowerAfter before chars = chars.map Char.toLower from after []
  induction chars with
  | nil => exact fun _ => rfl
  | cons char rest ih =>
    intro before
    obtain ⟨here, later⟩ := List.forall_mem_cons.mp ascii
    have noSigma : char ≠ 'Σ' := by
      rintro rfl
      exact absurd here (by decide)
    rw [toLowerAfter, if_neg noSigma, lowerChar, if_pos here, ih later]
    rfl

end Text

namespace Markup

/-- A small letter or a digit. -/
def isKeyPart (char : Char) : Bool := char.isLower || char.isDigit

theorem ascii_of_isKeyPart {char : Char} (part : isKeyPart char = true) : char.toNat < 128 := by
  simp only [isKeyPart, Char.isLower, Char.isDigit, Bool.or_eq_true, Bool.and_eq_true,
    decide_eq_true_eq, UInt32.le_iff_toNat_le, ge_iff_le] at part
  have least : 'z'.val.toNat = 122 ∧ '9'.val.toNat = 57 := ⟨rfl, rfl⟩
  show char.val.toNat < 128
  omega

/-- What a small letter or a digit is not, and what it stays in small letters. -/
theorem isKeyPart_spec {char : Char} (part : isKeyPart char = true) :
    char.isUpper = false ∧ char.toLower = char ∧ char ≠ '-' ∧ char ≠ '_' :=
  Text.forall_ascii (fun char => isKeyPart char = true →
    char.isUpper = false ∧ char.toLower = char ∧ char ≠ '-' ∧ char ≠ '_') (by decide)
    (ascii_of_isKeyPart part) part

/-- The capital of a small letter. -/
theorem toUpper_spec {char : Char} (lower : char.isLower = true) :
    char.toUpper.isUpper = true ∧ isKeyPart char.toUpper = false ∧ char.toUpper.toLower = char ∧
      char.toUpper.toNat < 128 :=
  Text.forall_ascii (fun char => char.isLower = true →
    char.toUpper.isUpper = true ∧ isKeyPart char.toUpper = false ∧ char.toUpper.toLower = char ∧
      char.toUpper.toNat < 128) (by decide)
    (ascii_of_isKeyPart (Bool.or_eq_true_iff.mpr (.inl lower))) lower

/-! ### Keys -/

/-- A small letter, and then small letters and digits. -/
structure KeyWord where
  first : Char
  rest : List Char
  isLower : first.isLower = true
  areParts : ∀ char ∈ rest, isKeyPart char = true

namespace KeyWord

/-- The characters of a word. -/
def chars (word : KeyWord) : List Char := word.first :: word.rest

/-- A word that begins with a capital. -/
def capital (word : KeyWord) : List Char := word.first.toUpper :: word.rest

theorem areParts_chars (word : KeyWord) : ∀ char ∈ word.chars, isKeyPart char = true :=
  List.forall_mem_cons.mpr ⟨Bool.or_eq_true_iff.mpr (.inl word.isLower), word.areParts⟩

end KeyWord

/-- Words with single hyphens between them. -/
structure KebabKey where
  head : KeyWord
  tail : List KeyWord

namespace KebabKey

/-- The words with a mark between them. -/
def joined (key : KebabKey) (mark : Char) : List Char :=
  key.head.chars ++ key.tail.flatMap fun word => mark :: word.chars

/-- A key as it is spelled in a document. -/
def text (key : KebabKey) : String := String.ofList (key.joined '-')

/-- The words between the first and the last one. -/
def inner (key : KebabKey) : List KeyWord := key.tail.dropLast

/-- A key in camel case. -/
def camel (key : KebabKey) : List Char := key.head.chars ++ key.tail.flatMap KeyWord.capital

end KebabKey

/-! ### Camel case -/

/-- Words are copied. -/
theorem camelChars_parts {chars : List Char} (parts : ∀ char ∈ chars, isKeyPart char = true)
    (rest : List Char) :
    camelChars true false (chars ++ rest) = chars ++ camelChars true false rest := by
  induction chars with
  | nil => rfl
  | cons char chars ih =>
    obtain ⟨here, later⟩ := List.forall_mem_cons.mp parts
    obtain ⟨_, _, hyphen, underscore⟩ := isKeyPart_spec here
    rw [List.cons_append, camelChars, if_neg (by simp [hyphen, underscore]), if_neg (by decide),
      ih later, List.cons_append]

theorem camelChars_tail (words : List KeyWord) :
    camelChars true false (words.flatMap fun word => '-' :: word.chars) =
      words.flatMap KeyWord.capital := by
  induction words with
  | nil => rfl
  | cons word words ih =>
    obtain ⟨_, _, hyphen, underscore⟩ :=
      isKeyPart_spec (Bool.or_eq_true_iff.mpr (.inl word.isLower))
    rw [List.flatMap_cons, List.flatMap_cons, List.cons_append, camelChars, if_pos (by decide),
      KeyWord.chars, List.cons_append, camelChars, if_neg (by simp [hyphen, underscore]),
      if_pos rfl, camelChars_parts word.areParts, ih, KeyWord.capital, List.cons_append]

/-- **A key in camel case**: a capital begins every word but the first. -/
theorem toList_camelCase (key : KebabKey) : (camelCase key.text).toList = key.camel := by
  obtain ⟨_, _, hyphen, underscore⟩ :=
    isKeyPart_spec (Bool.or_eq_true_iff.mpr (.inl key.head.isLower))
  rw [camelCase, String.toList_ofList, KebabKey.text, String.toList_ofList, KebabKey.joined,
    KeyWord.chars, List.cons_append, camelChars, if_neg (by simp [hyphen, underscore]),
    if_neg (by decide), camelChars_parts key.head.areParts, camelChars_tail]
  rfl

/-! ### Snake case -/

/-- Words in a row. A mark comes in front of a word unless the one before it is a single character;
`seen` says whether one comes in front of the first. -/
def marked (write : KeyWord → List Char) (seen : Bool) : List KeyWord → List Char
  | [] => []
  | word :: words =>
    (if seen then ['_'] else []) ++ (write word ++ marked write (!word.rest.isEmpty) words)

/-- No underscore comes behind a capital. -/
theorem markWords_capital {char : Char} (other : isKeyPart char = false) (rest : List Char) :
    markWords (char :: rest) = char :: markWords rest := by
  cases rest with
  | nil => rfl
  | cons next rest =>
    rw [markWords, if_neg]
    intro both
    have part : isKeyPart char = true := (Bool.and_eq_true_iff.mp both).1
    rw [other] at part
    cases part

/-- No underscore comes within a word. -/
theorem markWords_parts {chars : List Char} (parts : ∀ char ∈ chars, isKeyPart char = true) :
    markWords chars = chars := by
  induction chars with
  | nil => rfl
  | cons char chars ih =>
    obtain ⟨_, later⟩ := List.forall_mem_cons.mp parts
    cases chars with
    | nil => rfl
    | cons next chars =>
      have small := (isKeyPart_spec (later next List.mem_cons_self)).1
      rw [markWords, if_neg (by simp [small]), ih later]

/-- An underscore comes between a word and a capital behind it. -/
theorem markWords_behind {chars : List Char} (some : chars ≠ [])
    (parts : ∀ char ∈ chars, isKeyPart char = true) {char : Char} (upper : char.isUpper = true)
    (rest : List Char) :
    markWords (chars ++ char :: rest) = chars ++ '_' :: markWords (char :: rest) := by
  induction chars with
  | nil => exact absurd rfl some
  | cons first chars ih =>
    obtain ⟨here, later⟩ := List.forall_mem_cons.mp parts
    cases chars with
    | nil =>
      have told : ((first.isLower || first.isDigit) && char.isUpper) = true := by
        rw [upper, Bool.and_true]
        exact here
      rw [List.singleton_append, markWords, if_pos told, List.singleton_append]
    | cons next chars =>
      have small := (isKeyPart_spec (later next List.mem_cons_self)).1
      have after := ih (List.cons_ne_nil next chars) later
      rw [List.cons_append] at after
      rw [List.cons_append, List.cons_append, markWords, if_neg (by simp [small]), after]
      rfl

/-- **Where the words of a key in camel case are told apart**: in front of a capital, unless a
single capital stands before it. -/
theorem markWords_flatMap (words : List KeyWord) :
    markWords (words.flatMap KeyWord.capital) = marked KeyWord.capital false words ∧
      ∀ chars ≠ [], (∀ char ∈ chars, isKeyPart char = true) →
        markWords (chars ++ words.flatMap KeyWord.capital) =
          chars ++ marked KeyWord.capital true words := by
  induction words with
  | nil =>
    refine ⟨rfl, fun chars _ parts => ?_⟩
    rw [List.flatMap_nil, List.append_nil, markWords_parts parts, marked, List.append_nil]
  | cons word words ih =>
    obtain ⟨upper, other, _⟩ := toUpper_spec word.isLower
    -- The word itself: a single capital is followed by the next one at once.
    have here : markWords ((word :: words).flatMap KeyWord.capital) =
        word.capital ++ marked KeyWord.capital (!word.rest.isEmpty) words := by
      rw [List.flatMap_cons, KeyWord.capital, List.cons_append, markWords_capital other,
        List.cons_append]
      cases same : word.rest with
      | nil => rw [List.nil_append, ih.1]; rfl
      | cons next rest =>
        rw [ih.2 _ (List.cons_ne_nil next rest) (same ▸ word.areParts)]
        rfl
    refine ⟨by rw [here]; rfl, fun chars some parts => ?_⟩
    have behind := markWords_behind some parts upper (word.rest ++ words.flatMap KeyWord.capital)
    rw [List.flatMap_cons, KeyWord.capital, List.cons_append] at here ⊢
    rw [behind, here]
    rfl

theorem map_toLower_parts {chars : List Char} (parts : ∀ char ∈ chars, isKeyPart char = true) :
    chars.map Char.toLower = chars :=
  (List.map_congr_left fun char member => (isKeyPart_spec (parts char member)).2.1).trans
    (List.map_id' chars)

theorem map_toLower_capital (word : KeyWord) : word.capital.map Char.toLower = word.chars := by
  obtain ⟨_, _, lower, _⟩ := toUpper_spec word.isLower
  rw [KeyWord.capital, List.map_cons, lower, map_toLower_parts word.areParts, KeyWord.chars]

/-- Words in small letters. -/
theorem map_toLower_marked (seen : Bool) (words : List KeyWord) :
    (marked KeyWord.capital seen words).map Char.toLower = marked KeyWord.chars seen words := by
  induction words generalizing seen with
  | nil => rfl
  | cons word words ih =>
    have mark : (if seen then ['_'] else []).map Char.toLower = if seen then ['_'] else [] := by
      cases seen <;> rfl
    rw [marked, List.map_append, List.map_append, mark, map_toLower_capital, ih, marked]

/-- What is written of words is of the basic alphabet. -/
theorem ascii_marked (seen : Bool) (words : List KeyWord) :
    ∀ char ∈ marked KeyWord.capital seen words, char.toNat < 128 := by
  induction words generalizing seen with
  | nil => exact List.forall_mem_nil _
  | cons word words ih =>
    refine List.forall_mem_append.mpr ⟨?_, List.forall_mem_append.mpr ⟨?_, ih _⟩⟩
    · split
      · exact List.forall_mem_singleton.mpr (by decide)
      · exact List.forall_mem_nil _
    · exact List.forall_mem_cons.mpr ⟨(toUpper_spec word.isLower).2.2.2, fun char member =>
        ascii_of_isKeyPart (word.areParts char member)⟩

/-- There are no hyphens among words. -/
theorem hyphen_notMem_marked (seen : Bool) (words : List KeyWord) :
    ∀ char ∈ marked KeyWord.chars seen words, char ≠ '-' := by
  induction words generalizing seen with
  | nil => exact List.forall_mem_nil _
  | cons word words ih =>
    refine List.forall_mem_append.mpr ⟨?_, List.forall_mem_append.mpr ⟨fun char member => ?_, ih _⟩⟩
    · split
      · exact List.forall_mem_singleton.mpr (by decide)
      · exact List.forall_mem_nil _
    · exact (isKeyPart_spec (word.areParts_chars char member)).2.2.1

/-- Where no hyphen is, none is replaced. -/
theorem map_hyphen_of_free {chars : List Char} (free : ∀ char ∈ chars, char ≠ '-') :
    chars.map (fun char => if char = '-' then '_' else char) = chars :=
  (List.map_congr_left fun char member => if_neg (free char member)).trans (List.map_id' chars)

/-- **The key that comes back**: there is an underscore in front of every word but the first, unless
the word before it is a single character and not the first one. -/
theorem toList_snakeCase (key : KebabKey) :
    (snakeCase (camelCase key.text)).toList =
      key.head.chars ++ marked KeyWord.chars true key.tail := by
  have words : markWords key.camel = key.head.chars ++ marked KeyWord.capital true key.tail :=
    (markWords_flatMap key.tail).2 _ (List.cons_ne_nil _ _) key.head.areParts_chars
  have ascii : ∀ char ∈ key.head.chars ++ marked KeyWord.capital true key.tail,
      char.toNat < 128 := List.forall_mem_append.mpr
    ⟨fun char member => ascii_of_isKeyPart (key.head.areParts_chars char member),
      ascii_marked true key.tail⟩
  have plain : ∀ char ∈ key.head.chars ++ marked KeyWord.chars true key.tail, char ≠ '-' :=
    List.forall_mem_append.mpr
      ⟨fun char member => (isKeyPart_spec (key.head.areParts_chars char member)).2.2.1,
        hyphen_notMem_marked true key.tail⟩
  rw [snakeCase, String.toList_ofList, toList_camelCase, words, Text.toLower_of_ascii ascii,
    List.map_append, map_toLower_parts key.head.areParts_chars, map_toLower_marked]
  exact map_hyphen_of_free plain

/-! ### Keys that come back -/

/-- An underscore stands for every hyphen of a key. -/
theorem map_joined (key : KebabKey) :
    (key.joined '-').map (fun char => if char = '-' then '_' else char) = key.joined '_' := by
  have kept : ∀ word : KeyWord,
      word.chars.map (fun char => if char = '-' then '_' else char) = word.chars := fun word =>
    map_hyphen_of_free fun char member =>
      (isKeyPart_spec (word.areParts_chars char member)).2.2.1
  rw [KebabKey.joined, List.map_append, kept, List.map_flatMap]
  simp only [List.map_cons, kept, if_true]
  rfl

/-- Words have all their marks when each but the last has at least two characters, and the first one
is behind a mark. -/
theorem marked_eq_iff (seen : Bool) (words : List KeyWord) :
    marked KeyWord.chars seen words = words.flatMap (fun word => '_' :: word.chars) ↔
      words = [] ∨ seen = true ∧ ∀ word ∈ words.dropLast, 1 < word.chars.length := by
  induction words generalizing seen with
  | nil => simp [marked]
  | cons word words ih =>
    cases seen with
    | false =>
      have letter := (isKeyPart_spec (word.areParts_chars _ List.mem_cons_self)).2.2.2
      simp [marked, KeyWord.chars, letter]
    | true =>
      have here : marked KeyWord.chars true (word :: words) =
          (word :: words).flatMap (fun word => '_' :: word.chars) ↔
            marked KeyWord.chars (!word.rest.isEmpty) words =
              words.flatMap fun word => '_' :: word.chars := by
        simp [marked]
      rw [here, ih]
      cases words with
      | nil => simp
      | cons next words =>
        have long : (!word.rest.isEmpty) = true ↔ 1 < word.chars.length := by
          cases same : word.rest <;> simp [KeyWord.chars, same]
        simp [long]

/-- **A key comes back with an underscore for every hyphen exactly when each word between the first
and the last has at least two characters.** Then no capital stands in front of a capital in camel
case. -/
theorem snakeCase_camelCase_iff (key : KebabKey) :
    snakeCase (camelCase key.text) = key.text.map (fun char => if char = '-' then '_' else char) ↔
      ∀ word ∈ key.inner, 1 < word.chars.length := by
  rw [← String.toList_inj, toList_snakeCase, String.toList_map, KebabKey.text,
    String.toList_ofList, map_joined, KebabKey.joined, List.append_cancel_left_eq, marked_eq_iff]
  constructor
  · rintro (none | ⟨_, long⟩)
    · rw [KebabKey.inner, none]
      exact List.forall_mem_nil _
    · exact long
  · exact fun long => .inr ⟨rfl, long⟩

/-- A word of one letter. -/
def letterWord (letter : Char) (isLower : letter.isLower = true) : KeyWord :=
  ⟨letter, [], isLower, List.forall_mem_nil _⟩

/-- The second of three letters is lost between the capitals of camel case. -/
theorem snakeCase_camelCase_ne_letters :
    ∃ key : KebabKey, key.text = "a-b-c" ∧ snakeCase (camelCase key.text) = "a_bc" ∧
      snakeCase (camelCase key.text) ≠
        key.text.map fun char => if char = '-' then '_' else char := by
  refine ⟨⟨letterWord 'a' (by decide), [letterWord 'b' (by decide), letterWord 'c' (by decide)]⟩,
    by decide, by decide, fun same => ?_⟩
  rw [← String.toList_inj, String.toList_map] at same
  exact absurd same (by decide)

end Markup

end PromptMarkup
