/-
**The answers of a source map.**

Every byte of an output is in one piece, and a source map answers by the range of that piece alone:
with one byte if the range is as long as the text, and with the range otherwise. So a byte of a copy
is answered with the byte that it was copied from. But other text is told apart byte by byte, too,
where it happens to be as long as its range.

* `Text.byteAt?`: the bytes of a text, and those that a source reads at a range;
* `Spot`, `Fragment.spotAt?`: the piece that a byte of a text is in;
* `byteAt?_spotFrom`, `mem_segments_iff`: the byte and the segment at an offset by its piece;
* `toInput?_eq`, `toInput?_copy`: the answer at an offset by its piece, and at a copy;
* `Spot.AnswersTruly`, `answersTruly_iff`: what an answer should be, and when it is;
* `toInput?_truthful`: the answers for a compiled document, and which of them are true.
-/

import PromptMarkup.Proofs.Output.PieceOrigins
import PromptMarkup.Proofs.Output.SingleSpeaker

namespace PromptMarkup

open Text (byteLength byteLength_append byteLength_toList)

variable {source : String}

/-! ### Bytes -/

namespace Text

/-- The byte of a text at an offset. -/
def byteAt? (text : String) (offset : Nat) : Option UInt8 := text.toByteArray.data[offset]?

theorem byteAt?_append (first second : String) (offset : Nat) :
    byteAt? (first ++ second) offset =
      if offset < byteLength first.toList then byteAt? first offset
      else byteAt? second (offset - byteLength first.toList) := by
  unfold byteAt?
  rw [String.toByteArray_append, ByteArray.data_append, Array.getElem?_append, ByteArray.size_data,
    String.size_toByteArray, byteLength_toList]

/-- A text has a byte at each offset before its end. -/
theorem exists_byteAt? {text : String} {offset : Nat} (inside : offset < byteLength text.toList) :
    ∃ byte, byteAt? text offset = some byte := by
  rw [byteLength_toList, ← String.size_toByteArray, ← ByteArray.size_data] at inside
  exact ⟨_, Array.getElem?_eq_getElem inside⟩

end Text

/-- **The bytes that a source reads at a range are its bytes there.** -/
theorem Span.Reads.byteAt? {span : Span} {text : String} {index : Nat}
    (reads : span.Reads source text) (inside : index < byteLength text.toList) :
    Text.byteAt? source (span.start + index) = Text.byteAt? text index := by
  obtain ⟨before, after, whole, rfl⟩ := reads
  have parts : source = String.ofList before ++ (text ++ String.ofList after) := by
    apply String.toList_injective
    simp [whole]
  show Text.byteAt? source (byteLength before + index) = Text.byteAt? text index
  rw [parts, Text.byteAt?_append, Text.byteAt?_append, String.toList_ofList, if_neg (by omega),
    Nat.add_sub_cancel_left, if_pos inside]

/-! ### Spots -/

/-- A piece with the offset that its text has in an output. -/
structure Spot where
  piece : Piece
  start : Nat

/-- The segment that a piece leaves in a source map. -/
def Spot.segment (spot : Spot) : Segment :=
  ⟨spot.piece.span, ⟨spot.start, spot.start + spot.piece.size⟩⟩

/-- The byte of the source that a byte of the output belongs to if they belong together one by
one. -/
def Spot.origin (spot : Spot) (offset : Nat) : Nat := spot.piece.span.start + (offset - spot.start)

namespace Fragment

/-- The piece that holds a byte of the text of some pieces that stand behind `start` bytes. -/
def spotFrom? (offset start : Nat) : List Piece → Option Spot
  | [] => none
  | piece :: rest =>
    if offset < start + piece.size then some ⟨piece, start⟩
    else spotFrom? offset (start + piece.size) rest

/-- The piece that holds a byte of the text of a fragment. -/
def spotAt? (fragment : Fragment) (offset : Nat) : Option Spot := spotFrom? offset 0 fragment

end Fragment

section Spots

variable {fragment : Fragment} {offset start : Nat} {spot : Spot} {segment : Segment}

/-- The piece at a byte is one of the fragment, and the byte is in its text. -/
theorem spotFrom?_spec (found : Fragment.spotFrom? offset start fragment = some spot)
    (behind : start ≤ offset) :
    spot.piece ∈ fragment ∧ spot.start ≤ offset ∧ offset < spot.start + spot.piece.size := by
  induction fragment generalizing start with
  | nil => cases found
  | cons piece rest ih =>
    unfold Fragment.spotFrom? at found
    split at found
    next inside =>
      obtain rfl := Option.some.inj found
      exact ⟨List.mem_cons_self, behind, inside⟩
    next beyond =>
      obtain ⟨member, place⟩ := ih found (Nat.not_lt.mp beyond)
      exact ⟨List.mem_cons_of_mem _ member, place⟩

/-- **Every byte of a text is in a piece.** -/
theorem exists_spotFrom? (behind : start ≤ offset)
    (inside : offset < start + byteLength fragment.chars) :
    ∃ spot, Fragment.spotFrom? offset start fragment = some spot := by
  induction fragment generalizing start with
  | nil => exact absurd inside (Nat.not_lt.mpr behind)
  | cons piece rest ih =>
    unfold Fragment.spotFrom?
    split
    · exact ⟨_, rfl⟩
    · apply ih (by omega)
      rw [Fragment.chars_cons, byteLength_append] at inside
      show offset < start + byteLength piece.text.toList + byteLength (Fragment.chars rest)
      omega

/-- **The segment at an offset is that of the piece there.** -/
theorem find?_segmentsFrom (behind : start ≤ offset) :
    (SourceMap.segmentsFrom start fragment).find? (fun segment => segment.output.contains offset) =
      (Fragment.spotFrom? offset start fragment).map Spot.segment := by
  induction fragment generalizing start with
  | nil => rfl
  | cons piece rest ih =>
    unfold SourceMap.segmentsFrom Fragment.spotFrom?
    by_cases empty : piece.text.isEmpty
    · have none : piece.size = 0 := by
        rw [Piece.size, String.isEmpty_iff.mp empty]
        rfl
      rw [if_pos empty, none, if_neg (by omega)]
      exact ih behind
    · rw [if_neg empty]
      by_cases inside : offset < start + piece.size
      · have here : (⟨start, start + piece.size⟩ : Span).contains offset = true :=
          Span.contains_iff.mpr ⟨behind, inside⟩
        simp [here, inside, Spot.segment]
      · have beyond : (⟨start, start + piece.size⟩ : Span).contains offset = false := by
          simp [Span.contains, inside]
        simp only [List.find?_cons, beyond, if_neg inside]
        exact ih (Nat.not_lt.mp inside)

/-- **The byte of a text at an offset is a byte of the piece there.** -/
theorem byteAt?_spotFrom (found : Fragment.spotFrom? offset start fragment = some spot)
    (behind : start ≤ offset) :
    Text.byteAt? (Fragment.text fragment) (offset - start) =
      Text.byteAt? spot.piece.text (offset - spot.start) := by
  induction fragment generalizing start with
  | nil => cases found
  | cons piece rest ih =>
    have parts : Fragment.text (piece :: rest) = piece.text ++ Fragment.text rest := by
      apply String.toList_injective
      simp [Fragment.toList_text]
    have size : piece.size = byteLength piece.text.toList := rfl
    rw [parts, Text.byteAt?_append]
    unfold Fragment.spotFrom? at found
    split at found
    next inside =>
      obtain rfl := Option.some.inj found
      rw [if_pos (by omega)]
    next beyond =>
      rw [if_neg (by omega), ← ih found (Nat.not_lt.mp beyond), ← size, Nat.sub_sub]

/-! ### Segments -/

/-- The segment of a piece is told apart byte by byte if the piece is as long as its range. -/
theorem Spot.isLinear_segment (spot : Spot) :
    spot.segment.isLinear = decide (spot.piece.span.length = spot.piece.size) := by
  have output : spot.segment.output.length = spot.piece.size := Nat.add_sub_cancel_left ..
  rw [Segment.isLinear, output]
  rfl

/-- What a source map looks up at an offset is the segment of the piece there. -/
theorem find?_segments (found : fragment.spotAt? offset = some spot) :
    (SourceMap.ofFragment fragment).segments.find? (fun segment =>
      segment.output.contains offset) = some spot.segment := by
  show (SourceMap.segmentsFrom 0 fragment).find? _ = _
  rw [find?_segmentsFrom (Nat.zero_le offset)]
  exact congrArg (Option.map Spot.segment) found

theorem start_le_of_mem_segmentsFrom (member : segment ∈ SourceMap.segmentsFrom start fragment) :
    start ≤ segment.output.start := by
  induction fragment generalizing start with
  | nil => cases member
  | cons piece rest ih =>
    unfold SourceMap.segmentsFrom at member
    split at member
    next => exact ih member
    next =>
      rcases List.mem_cons.mp member with rfl | later
      · exact Nat.le_refl _
      · exact Nat.le_trans (Nat.le_add_right _ _) (ih later)

/-- A segment around an offset is the one that is found there, as those in front of it have ended
before. -/
theorem find?_of_mem_segmentsFrom (member : segment ∈ SourceMap.segmentsFrom start fragment)
    (around : segment.output.contains offset = true) :
    (SourceMap.segmentsFrom start fragment).find? (fun other => other.output.contains offset) =
      some segment := by
  induction fragment generalizing start with
  | nil => cases member
  | cons piece rest ih =>
    unfold SourceMap.segmentsFrom at member ⊢
    split at member
    next empty =>
      rw [if_pos empty]
      exact ih member
    next full =>
      rw [if_neg full]
      rcases List.mem_cons.mp member with rfl | later
      · exact List.find?_cons_of_pos around
      · have ahead := start_le_of_mem_segmentsFrom later
        rw [List.find?_cons_of_neg]
        · exact ih later
        · rw [Span.contains_iff] at around ⊢
          show ¬ (start ≤ offset ∧ offset < start + piece.size)
          omega

/-- **There is one segment at an offset**, that of the piece there. -/
theorem mem_segments_iff (found : fragment.spotAt? offset = some spot) :
    segment ∈ (SourceMap.ofFragment fragment).segments ∧
      segment.output.contains offset = true ↔ segment = spot.segment := by
  have there := find?_segments found
  constructor
  · intro ⟨member, around⟩
    have here := find?_of_mem_segmentsFrom member around
    exact Option.some.inj (here.symm.trans there)
  · rintro rfl
    have around := List.find?_some there
    exact ⟨List.mem_of_find?_eq_some there, around⟩

/-! ### Answers -/

/-- **A source map answers by the piece at an offset.** -/
theorem toInput?_eq (found : fragment.spotAt? offset = some spot) :
    (SourceMap.ofFragment fragment).toInput? offset =
      some (if spot.piece.span.length = spot.piece.size then
        ⟨spot.origin offset, spot.origin offset + 1⟩ else spot.piece.span) := by
  unfold SourceMap.toInput?
  rw [find?_segments found]
  simp only [Option.map_some, spot.isLinear_segment, decide_eq_true_eq]
  rfl

/-- A copy is as long as its range. -/
theorem Piece.Fits.length_eq {piece : Piece} (fits : piece.Fits source)
    (copy : piece.exact = true) : piece.span.length = piece.size := by
  rw [Span.length, (fits.reads copy).stop_eq, Nat.add_sub_cancel_left]
  rfl

/-- The byte that a byte of a copy was copied from is in the range of the copy. -/
theorem contains_origin (found : fragment.spotAt? offset = some spot)
    (fits : spot.piece.Fits source) (copy : spot.piece.exact = true) :
    spot.piece.span.contains (spot.origin offset) = true := by
  obtain ⟨_, start, stop⟩ := spotFrom?_spec found (Nat.zero_le offset)
  have length : spot.piece.span.stop - spot.piece.span.start = spot.piece.size :=
    fits.length_eq copy
  rw [Span.contains_iff, Spot.origin]
  omega

/-- **A byte of a copy is answered with the byte that it was copied from.** -/
theorem toInput?_copy (found : fragment.spotAt? offset = some spot)
    (fits : spot.piece.Fits source) (copy : spot.piece.exact = true) :
    (SourceMap.ofFragment fragment).toInput? offset =
        some ⟨spot.origin offset, spot.origin offset + 1⟩ ∧
      ∃ byte, Text.byteAt? source (spot.origin offset) = some byte ∧
        Text.byteAt? fragment.text offset = some byte := by
  obtain ⟨_, start, stop⟩ := spotFrom?_spec found (Nat.zero_le offset)
  have inside : offset - spot.start < byteLength spot.piece.text.toList := by
    show offset - spot.start < spot.piece.size
    omega
  obtain ⟨byte, read⟩ := Text.exists_byteAt? inside
  refine ⟨by rw [toInput?_eq found, if_pos (fits.length_eq copy)], byte, ?_, ?_⟩
  · show Text.byteAt? source (spot.piece.span.start + (offset - spot.start)) = some byte
    rw [(fits.reads copy).byteAt? inside, read]
  · have whole := byteAt?_spotFrom found (Nat.zero_le offset)
    rwa [Nat.sub_zero, read] at whole

/-- A single byte in the range of a piece that is as long as its range is all of the range if and
only if the range has one byte. -/
theorem Spot.origin_eq_span_iff (after : spot.start ≤ offset)
    (before : offset < spot.start + spot.piece.size)
    (same : spot.piece.span.length = spot.piece.size) :
    (⟨spot.origin offset, spot.origin offset + 1⟩ : Span) = spot.piece.span ↔
      spot.piece.span.length = 1 := by
  constructor
  · intro whole
    rw [← whole]
    exact Nat.add_sub_cancel_left ..
  · intro single
    have stop : spot.piece.span.stop = spot.piece.span.start + 1 := by
      rw [Span.length] at single
      omega
    have first : spot.origin offset = spot.piece.span.start := by
      rw [Spot.origin]
      omega
    rw [first, ← stop]

/-- The answer at a byte of a text is true. Where a single byte is answered for a longer range, the
source has the byte of the text there; and text that is not a copy is answered with its range as a
whole. -/
structure Spot.AnswersTruly (spot : Spot) (source text : String) (offset : Nat)
    (answer : Option Span) : Prop where
  reads : ∀ origin, answer = some ⟨origin, origin + 1⟩ → 1 < spot.piece.span.length →
    Text.byteAt? source origin = Text.byteAt? text offset
  whole : spot.piece.exact = false → answer = some spot.piece.span

/-- **Which answers are true**: those at copies, and those at text with a range of another length
than its own, or of one byte. -/
theorem answersTruly_iff (found : fragment.spotAt? offset = some spot)
    (fits : spot.piece.Fits source) :
    spot.AnswersTruly source fragment.text offset
        ((SourceMap.ofFragment fragment).toInput? offset) ↔
      spot.piece.exact = true ∨ spot.piece.span.length ≠ spot.piece.size ∨
        spot.piece.span.length = 1 := by
  obtain ⟨_, start, stop⟩ := spotFrom?_spec found (Nat.zero_le offset)
  cases exact : spot.piece.exact with
  | true =>
    obtain ⟨answer, byte, read, written⟩ := toInput?_copy found fits exact
    rw [answer]
    refine iff_of_true ⟨fun origin single _ => ?_, fun other => ?_⟩ (.inl rfl)
    · simp only [Option.some.injEq, Span.mk.injEq] at single
      rw [← single.1, read, written]
    · rw [exact] at other
      cases other
  | false =>
    rw [toInput?_eq found]
    by_cases same : spot.piece.span.length = spot.piece.size
    · have whole := spot.origin_eq_span_iff start stop same
      rw [if_pos same]
      constructor
      · intro truly
        exact .inr (.inr (whole.mp (Option.some.inj (truly.whole exact))))
      · intro shape
        have single : spot.piece.span.length = 1 := by simpa [same] using shape
        exact ⟨fun _ _ long => absurd single long.ne', fun _ => congrArg some (whole.mpr single)⟩
    · rw [if_neg same]
      refine iff_of_true ⟨fun origin single long => ?_, fun _ => rfl⟩ (.inr (.inl same))
      rw [Option.some.inj single] at long
      simp [Span.length] at long

end Spots

/-! ### Documents -/

/-- **What a source map answers for a compiled document.** Every byte of the plain text is in a
piece of it, and the segment of that piece is the only one at the byte. A byte of a copy is answered
with the byte of the source that it was copied from. An answer is true if the piece is a copy, or if
it has not as many bytes as its range, or just one; other text is told apart byte by byte though it
is no copy. -/
theorem toInput?_truthful (options : CompileOptions) (source : String) (scope : Scope)
    (offset : Nat)
    (inside : offset <
      ((Prompt.ofSource options source).compile scope).mapped.text.utf8ByteSize) :
    let compilation := (Prompt.ofSource options source).compile scope
    let map := compilation.mapped.sourceMap
    ∃ spot, (layDocument .plain compilation.document).spotAt? offset = some spot ∧
      (∀ segment, segment ∈ map.segments ∧ segment.output.contains offset = true ↔
        segment = spot.segment) ∧
      (spot.piece.exact = true → ∃ origin byte, map.toInput? offset = some ⟨origin, origin + 1⟩ ∧
        Text.byteAt? source origin = some byte ∧
        Text.byteAt? compilation.mapped.text offset = some byte) ∧
      (spot.AnswersTruly source compilation.mapped.text offset (map.toInput? offset) ↔
        spot.piece.exact = true ∨ spot.piece.span.length ≠ spot.piece.size ∨
          spot.piece.span.length = 1) := by
  intro compilation map
  have size : (layDocument .plain compilation.document).text.utf8ByteSize =
      0 + byteLength (Fragment.chars (layDocument .plain compilation.document)) := by
    rw [← byteLength_toList, Fragment.toList_text, Nat.zero_add]
  obtain ⟨spot, found⟩ := exists_spotFrom? (Nat.zero_le offset) (Nat.lt_of_lt_of_eq inside size)
  have member := (spotFrom?_spec found (Nat.zero_le offset)).1
  have fits : spot.piece.Fits source := (stems_compile options source scope .plain _ member).fits
  refine ⟨spot, found, fun _ => mem_segments_iff found, fun copy => ?_,
    answersTruly_iff found fits⟩
  obtain ⟨answer, byte, read, written⟩ := toInput?_copy found fits copy
  exact ⟨spot.origin offset, byte, answer, read, written⟩

/-- A greeting with a template that is as long as the word that is filled in for it. -/
def Prompt.filledIn : Prompt := .plain "say \x7b\x7bx\x7d\x7d"

/-- The compilation of the greeting for the word hello. -/
def Compilation.filledIn : Compilation :=
  Prompt.filledIn.compile (.ofFrame [("x", .string "hello")])

theorem toInput?_truthful_filledIn :
    let compilation := Compilation.filledIn
    1 < compilation.mapped.text.utf8ByteSize ∧
      ∃ spot, (layDocument .plain compilation.document).spotAt? 1 = some spot ∧
        spot.AnswersTruly Prompt.filledIn.source compilation.mapped.text 1
          (compilation.mapped.sourceMap.toInput? 1) := by
  intro compilation
  have inside : 1 < Compilation.filledIn.mapped.text.utf8ByteSize := by decide +kernel
  have copied : ((layDocument .plain Compilation.filledIn.document).spotAt? 1).map
      (fun spot => spot.piece.exact) = some true := by decide +kernel
  obtain ⟨spot, found, _, _, truly⟩ := toInput?_truthful (.standard (.ofTable []))
    Prompt.filledIn.source (.ofFrame [("x", .string "hello")]) 1 inside
  refine ⟨inside, spot, found, truly.mpr (.inl ?_)⟩
  rw [show (layDocument .plain Compilation.filledIn.document).spotAt? 1 = some spot from found]
    at copied
  exact Option.some.inj copied

/-- The first byte of the word is answered with the first byte of the template, which is a brace,
and not with the template. -/
theorem toInput?_filledIn :
    let output := Compilation.filledIn.mapped
    (output.sourceMap.segments.find? fun segment => segment.output.contains 4) =
        some ⟨⟨4, 9⟩, ⟨4, 9⟩⟩ ∧
      output.sourceMap.toInput? 4 = some ⟨4, 5⟩ ∧
      Text.byteAt? Prompt.filledIn.source 4 = some 0x7b ∧
      Text.byteAt? output.text 4 = some 0x68 := by
  decide +kernel

end PromptMarkup
