/-
**Lines and columns.**

A place in a source is told by its line and column as well as by its offset: the line counts the
line feeds in front of it, and the column the bytes since the last of them.

* `Text.encodeUtf8_eq`: the bytes of a text are those of its characters;
* `LineIndex.startsAfter_eq`: the starts of lines can be read off the bytes;
* `LineIndex.offset_location`: the way back from lines and columns to offsets;
* `LineIndex.IsFaithful`: an index tells offsets by lines and columns, and the other way round;
* `LineIndex.isFaithful_ofSource`: so does the index of every source.
-/

import Mathlib.Data.List.DropRight
import Mathlib.Data.List.TakeWhile
import Mathlib.Data.Prod.Lex
import PromptMarkup.Source.Lines
import PromptMarkup.Text.Utf8

namespace PromptMarkup

/-! ### Bytes -/

namespace Text

/-- The byte of a line feed. -/
def lineFeed : UInt8 := 10

/-- No other character has the byte of a line feed in it. -/
theorem lineFeed_not_mem {char : Char} (other : char ≠ '\n') :
    lineFeed ∉ String.utf8EncodeChar char := by
  intro member
  have code : char.val.toNat ≠ 10 := fun same => other (Char.ext (UInt32.toNat_inj.mp same))
  have feed : lineFeed.toNat = 10 := rfl
  unfold String.utf8EncodeChar at member
  simp only at member
  -- The bytes of longer characters are at least 128.
  split_ifs at member
  all_goals
    simp only [List.mem_cons, List.not_mem_nil, or_false, ← UInt8.toNat_inj,
      UInt8.toNat_ofNat', feed] at member
    omega

theorem toList_loop_eq (bytes : ByteArray) (index : Nat) (front : List UInt8) :
    ByteArray.toList.loop bytes index front =
      front.reverse ++ bytes.data.toList.drop index := by
  fun_induction ByteArray.toList.loop bytes index front with
  | case1 index front inside ih =>
    have here : index < bytes.data.toList.length := inside
    rw [ih, List.drop_eq_getElem_cons here]
    simp [ByteArray.get!, inside]
  | case2 index front outside =>
    have all : bytes.data.toList.drop index = [] :=
      List.drop_eq_nil_of_le (Nat.le_of_not_lt outside)
    rw [all, List.append_nil]

/-- **The bytes of a text are those of its characters.** -/
theorem encodeUtf8_eq (text : String) :
    encodeUtf8 text = text.toList.flatMap String.utf8EncodeChar := by
  have whole : text.toUTF8 = text.toList.utf8Encode := by
    rw [String.toUTF8_eq_toByteArray]
    exact congrArg String.toByteArray (String.ofList_toList (s := text)).symm
  unfold encodeUtf8
  rw [whole, ByteArray.toList, toList_loop_eq, List.utf8Encode, List.toList_data_toByteArray]
  rfl

theorem length_encodeUtf8 (text : String) :
    (encodeUtf8 text).length = byteLength text.toList := by
  rw [encodeUtf8_eq]
  generalize text.toList = chars
  induction chars with
  | nil => rfl
  | cons char rest ih =>
    rw [List.flatMap_cons, List.length_append, String.length_utf8EncodeChar, ih, byteLength_cons]

end Text

namespace LineIndex

open Text (lineFeed encodeUtf8)

/-! ### Starts of lines -/

/-- The offsets behind the line feeds among some bytes that start at `offset`. -/
def endsAfter (offset : Nat) : List UInt8 → List Nat
  | [] => []
  | byte :: rest =>
    if byte = lineFeed then (offset + 1) :: endsAfter (offset + 1) rest
    else endsAfter (offset + 1) rest

theorem endsAfter_append (offset : Nat) (first second : List UInt8) :
    endsAfter offset (first ++ second) =
      endsAfter offset first ++ endsAfter (offset + first.length) second := by
  induction first generalizing offset with
  | nil => rfl
  | cons byte rest ih =>
    have shift : offset + 1 + rest.length = offset + (byte :: rest).length := by
      rw [List.length_cons]
      omega
    simp only [List.cons_append, endsAfter, ih, shift]
    split <;> rfl

theorem endsAfter_of_not_mem {bytes : List UInt8} (free : lineFeed ∉ bytes) (offset : Nat) :
    endsAfter offset bytes = [] := by
  induction bytes generalizing offset with
  | nil => rfl
  | cons byte rest ih =>
    obtain ⟨other, later⟩ := not_or.mp (mt List.mem_cons.mpr free)
    rw [endsAfter, if_neg (Ne.symm other), ih later]

/-- **Lines start behind the bytes of line feeds**, since no other character has such a byte. -/
theorem startsAfter_eq (offset : Nat) (chars : List Char) :
    startsAfter offset chars = endsAfter offset (chars.flatMap String.utf8EncodeChar) := by
  induction chars generalizing offset with
  | nil => rfl
  | cons char rest ih =>
    rw [List.flatMap_cons, endsAfter_append, String.length_utf8EncodeChar, ← ih]
    rw [startsAfter]
    split
    next same =>
      subst same
      rfl
    next other => rw [endsAfter_of_not_mem (Text.lineFeed_not_mem other), List.nil_append]

/-- As many lines end as there are line feeds. -/
theorem length_endsAfter (offset : Nat) (bytes : List UInt8) :
    (endsAfter offset bytes).length = bytes.count lineFeed := by
  induction bytes generalizing offset with
  | nil => rfl
  | cons byte rest ih =>
    unfold endsAfter
    by_cases same : byte = lineFeed
    · rw [if_pos same, same, List.count_cons_self, List.length_cons, ih]
    · rw [if_neg same, List.count_cons_of_ne same, ih]

/-- Behind the last line feed stand the bytes that are no line feeds. -/
theorem getLastD_endsAfter (offset : Nat) (bytes : List UInt8) :
    (endsAfter offset bytes).getLastD offset + (bytes.rtakeWhile (· ≠ lineFeed)).length =
      offset + bytes.length := by
  induction bytes using List.reverseRecOn with
  | nil => rfl
  | append_singleton rest byte ih =>
    rw [endsAfter_append, List.length_append, List.length_singleton]
    by_cases same : byte = lineFeed
    · rw [List.rtakeWhile_concat_neg _ _ _ (by simpa using same), endsAfter, if_pos same]
      simp [endsAfter]
      omega
    · rw [List.rtakeWhile_concat_pos _ _ _ (by simpa using same), endsAfter, if_neg same]
      simp only [endsAfter, List.append_nil, List.length_append, List.length_singleton]
      omega

theorem mem_endsAfter {offset start : Nat} {bytes : List UInt8}
    (member : start ∈ endsAfter offset bytes) :
    offset < start ∧ start ≤ offset + bytes.length := by
  induction bytes generalizing offset with
  | nil => cases member
  | cons byte rest ih =>
    rw [List.length_cons]
    rw [endsAfter] at member
    split at member
    next =>
      rcases List.mem_cons.mp member with rfl | later
      · omega
      · have := ih later
        omega
    next =>
      have := ih member
      omega

/-- The lines that end up to an offset are those of the bytes in front of it. -/
theorem takeWhile_endsAfter {count : Nat} {bytes : List UInt8} (inside : count ≤ bytes.length) :
    (endsAfter 0 bytes).takeWhile (fun start => start ≤ count) =
      endsAfter 0 (bytes.take count) := by
  have taken : (bytes.take count).length = count := List.length_take_of_le inside
  have split := endsAfter_append 0 (bytes.take count) (bytes.drop count)
  rw [List.take_append_drop, taken, Nat.zero_add] at split
  rw [split]
  refine (Text.takeWhile_of_all (fun start member => ?_) fun start member => ?_).1
  · have := (mem_endsAfter member).2
    rw [decide_eq_true_eq]
    omega
  · have := (mem_endsAfter (List.mem_of_mem_head? member)).1
    rw [decide_eq_false_iff_not]
    omega

/-! ### Lines and columns of a source -/

variable (source : String)

/-- The bytes of a source in front of an offset, all of them if it is past the end. -/
def bytesBefore (offset : Nat) : List UInt8 := (encodeUtf8 source).take offset

/-- The start of the line that an offset is in. -/
def lineStart (offset : Nat) : Nat := (endsAfter 0 (bytesBefore source offset)).getLastD 0

theorem starts_ofSource : (ofSource source).starts = 0 :: endsAfter 0 (encodeUtf8 source) := by
  rw [ofSource, startsAfter_eq, ← Text.encodeUtf8_eq]

theorem size_ofSource : (ofSource source).size = (encodeUtf8 source).length :=
  (Text.length_encodeUtf8 source).symm

theorem bytesBefore_min (offset : Nat) :
    bytesBefore source (min offset (encodeUtf8 source).length) = bytesBefore source offset := by
  unfold bytesBefore
  rw [← List.take_eq_take_min]

/-- The lines in front of an offset, with the one that it is in. -/
theorem takeWhile_starts (offset : Nat) :
    (ofSource source).starts.takeWhile
        (fun start => start ≤ min offset (ofSource source).size) =
      0 :: endsAfter 0 (bytesBefore source offset) := by
  rw [starts_ofSource, size_ofSource, List.takeWhile_cons_of_pos (by simp),
    takeWhile_endsAfter (Nat.min_le_right ..)]
  congr 2
  exact bytesBefore_min source offset

/-- The start of a line and the bytes since then are all there is in front of an offset. -/
theorem lineStart_add (offset : Nat) :
    lineStart source offset + ((bytesBefore source offset).rtakeWhile (· ≠ lineFeed)).length =
      min offset (encodeUtf8 source).length := by
  have whole := getLastD_endsAfter 0 (bytesBefore source offset)
  rw [Nat.zero_add, bytesBefore, List.length_take] at whole
  exact whole

/-- **Lines are counted by line feeds, and columns by bytes.** -/
theorem location_ofSource (offset : Nat) :
    (ofSource source).location offset =
      ⟨(bytesBefore source offset).count lineFeed + 1,
        ((bytesBefore source offset).rtakeWhile (· ≠ lineFeed)).length + 1,
        min offset (encodeUtf8 source).length⟩ := by
  have last : (0 :: endsAfter 0 (bytesBefore source offset)).getLastD 0 =
      lineStart source offset := by
    unfold lineStart
    cases endsAfter 0 (bytesBefore source offset) <;> rfl
  have since := lineStart_add source offset
  rw [location, takeWhile_starts, last, List.length_cons, length_endsAfter, size_ofSource]
  congr 2
  omega

/-- Each line starts where the index says. -/
theorem getElem?_starts (offset : Nat) :
    (ofSource source).starts[(bytesBefore source offset).count lineFeed]? =
      some (lineStart source offset) := by
  obtain ⟨behind, whole⟩ := takeWhile_starts source offset ▸ List.takeWhile_prefix _
  have last := List.getLast?_eq_getElem? (l := 0 :: endsAfter 0 (bytesBefore source offset))
  rw [List.length_cons, Nat.add_sub_cancel, length_endsAfter, List.getLast?_cons] at last
  rw [← whole, List.getElem?_append_left (by simp [length_endsAfter]), ← last]
  rw [lineStart, List.getLastD_eq_getLast?]

/-- **The way back**: a line and a column of an offset lead to it. -/
theorem offset_location {offset : Nat} (word : offset < wordCount) :
    (ofSource source).offset ((ofSource source).location offset).line
      ((ofSource source).location offset).column = min offset (encodeUtf8 source).length := by
  have since := lineStart_add source offset
  have small : min offset (encodeUtf8 source).length < wordCount :=
    lt_of_le_of_lt (Nat.min_le_left ..) word
  rw [location_ofSource]
  unfold LineIndex.offset
  simp only [Nat.add_sub_cancel, getElem?_starts, size_ofSource, Nat.succ_ne_zero, if_false]
  rw [since, Nat.mod_eq_of_lt small, Nat.min_assoc, Nat.min_self]

/-- Places are in the order of their offsets. -/
theorem location_lt {first second : Nat} (before : first < second)
    (inside : second ≤ (encodeUtf8 source).length) :
    toLex (((ofSource source).location first).line, ((ofSource source).location first).column) <
      toLex (((ofSource source).location second).line,
        ((ofSource source).location second).column) := by
  have lines : (bytesBefore source first).count lineFeed ≤
      (bytesBefore source second).count lineFeed :=
    (List.take_prefix_take_left (Nat.le_of_lt before)).sublist.count_le _
  have sinceFirst := lineStart_add source first
  have sinceSecond := lineStart_add source second
  rw [location_ofSource, location_ofSource, Prod.Lex.toLex_lt_toLex]
  rcases Nat.lt_or_eq_of_le lines with later | same
  · exact .inl (Nat.succ_lt_succ later)
  · -- In one line the columns count from the same start.
    have start := getElem?_starts source first
    rw [same, getElem?_starts, Option.some.injEq] at start
    refine .inr ⟨congrArg (· + 1) same, ?_⟩
    show _ + 1 < _ + 1
    omega

/-- No line and column lead out of the source. -/
theorem offset_le (index : LineIndex) (line column : Nat) :
    index.offset line column ≤ index.size := by
  unfold LineIndex.offset
  split
  · exact Nat.le_refl _
  · split
    · exact Nat.min_le_right ..
    · exact Nat.le_refl _

/-- An index tells the offsets of a source by lines and columns, and the other way round. -/
structure IsFaithful (index : LineIndex) : Prop where
  line_location : ∀ offset,
    (index.location offset).line = (bytesBefore source offset).count lineFeed + 1
  column_location : ∀ offset,
    (index.location offset).column =
      ((bytesBefore source offset).rtakeWhile (· ≠ lineFeed)).length + 1
  offset_clamped : ∀ offset, (index.location offset).offset = min offset (encodeUtf8 source).length
  offset_location : ∀ offset < wordCount,
    index.offset (index.location offset).line (index.location offset).column =
      min offset (encodeUtf8 source).length
  location_lt : ∀ first second, first < second → second ≤ (encodeUtf8 source).length →
    toLex ((index.location first).line, (index.location first).column) <
      toLex ((index.location second).line, (index.location second).column)
  offset_le : ∀ line column, index.offset line column ≤ (encodeUtf8 source).length

/-- **Lines and columns are a faithful change of coordinates**, for every source. -/
theorem isFaithful_ofSource : IsFaithful source (ofSource source) where
  line_location offset := by rw [location_ofSource]
  column_location offset := by rw [location_ofSource]
  offset_clamped offset := by rw [location_ofSource]
  offset_location _ word := offset_location source word
  location_lt _ _ before inside := location_lt source before inside
  offset_le line column := size_ofSource source ▸ offset_le (ofSource source) line column

/-- A column that is too great for a sum of words is taken for one further in front. -/
example : (ofSource "\n\n").location 2 = ⟨3, 1, 2⟩ ∧
    (ofSource "\n\n").offset 3 2 = 2 ∧ (ofSource "\n\n").offset 3 (wordCount - 1) = 0 := by
  decide

end LineIndex

end PromptMarkup
