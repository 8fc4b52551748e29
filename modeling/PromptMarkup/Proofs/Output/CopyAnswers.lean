/-
**The copies of a byte of the source.**

For a byte of the source, a source map looks for copies in the shortest ranges around the byte. The
range of a copy is a part of that of a text, and any other range around a byte of the text holds all
of it. So a copy is found from the byte that it was copied from, unless the same text has been cut
into shorter parts for another copy, as in another turn of a loop.

* `mem_narrowestAt`: the segments that are looked at for a byte of the source;
* `mem_toOutput_iff`: when a copy is found, for any fragment;
* `toOutput_copy`: when a copy is found in a compiled document.
-/

import PromptMarkup.Proofs.Output.OffsetAnswers

namespace PromptMarkup

open Markup

/-! ### Segments -/

/-- The segments looked at for a byte of the source are those around it of which no other one has a
shorter range. -/
theorem mem_narrowestAt {map : SourceMap} {offset : Nat} {segment : Segment} :
    segment ∈ map.narrowestAt offset ↔
      (segment ∈ map.segments ∧ segment.input.contains offset = true) ∧
        ∀ other ∈ map.segments, other.input.contains offset = true →
          segment.input.length ≤ other.input.length := by
  unfold SourceMap.narrowestAt
  simp only
  split
  next narrowest least =>
    obtain ⟨among, below⟩ := List.min?_eq_some_iff.mp least
    obtain ⟨first, around, rfl⟩ := List.mem_map.mp among
    rw [List.mem_filter] at around
    have least : ∀ other ∈ map.segments, other.input.contains offset = true →
        first.input.length ≤ other.input.length := fun other listed here =>
      below _ (List.mem_map_of_mem (List.mem_filter.mpr ⟨listed, here⟩))
    simp only [List.mem_filter, decide_eq_true_eq]
    refine and_congr_right fun here => ⟨fun same => ?_, fun shortest => ?_⟩
    · rwa [same]
    · exact Nat.le_antisymm (shortest first around.1 around.2) (least segment here.1 here.2)
  next none =>
    rw [List.min?_eq_none_iff, List.map_eq_nil_iff, List.filter_eq_nil_iff] at none
    constructor
    · intro member
      cases member
    · intro ⟨⟨listed, around⟩, _⟩
      exact absurd around (none segment listed)

section Fragments

variable {source : String} {fragment : Fragment} {offset : Nat} {spot : Spot}
  {segment : Segment}

/-- A byte that is answered for a byte of the source is in the segment that answers. -/
theorem contains_of_answer {origin : Nat} (around : segment.input.contains origin = true)
    (answer : (if segment.isLinear then
      ⟨segment.output.start + (origin - segment.input.start),
        segment.output.start + (origin - segment.input.start) + 1⟩
      else segment.output) = (⟨offset, offset + 1⟩ : Span)) :
    segment.output.contains offset = true := by
  rw [Span.contains_iff] at around ⊢
  split at answer
  next linear =>
    have same : segment.input.stop - segment.input.start =
        segment.output.stop - segment.output.start := of_decide_eq_true linear
    have place := congrArg Span.start answer
    simp only at place
    omega
  next =>
    rw [answer]
    exact ⟨Nat.le_refl _, Nat.lt_succ_self _⟩

/-- **When a copy is found** from the byte that it was copied from: if and only if no segment around
the byte has a shorter range than the copy. -/
theorem mem_toOutput_iff (found : fragment.spotAt? offset = some spot)
    (fits : spot.piece.Fits source) (copy : spot.piece.exact = true) :
    ⟨offset, offset + 1⟩ ∈ (SourceMap.ofFragment fragment).toOutput (spot.origin offset) ↔
      ∀ other ∈ (SourceMap.ofFragment fragment).segments,
        other.input.contains (spot.origin offset) = true →
          spot.piece.span.length ≤ other.input.length := by
  unfold SourceMap.toOutput
  constructor
  · intro member
    obtain ⟨segment, narrowest, answer⟩ := List.mem_map.mp member
    obtain ⟨⟨listed, around⟩, shortest⟩ := mem_narrowestAt.mp narrowest
    obtain rfl := (mem_segments_iff found).mp ⟨listed, contains_of_answer around answer⟩
    exact shortest
  · intro shortest
    obtain ⟨_, start, stop⟩ := spotFrom?_spec found (Nat.zero_le offset)
    have linear : spot.segment.isLinear = true := by
      rw [spot.isLinear_segment, decide_eq_true_eq]
      exact fits.length_eq copy
    have around := contains_origin found fits copy
    refine List.mem_map.mpr ⟨spot.segment,
      mem_narrowestAt.mpr ⟨⟨((mem_segments_iff found).mpr rfl).1, around⟩, shortest⟩, ?_⟩
    have place : spot.segment.output.start + (spot.origin offset - spot.segment.input.start) =
        offset := by
      show spot.start + (spot.piece.span.start + (offset - spot.start) -
        spot.piece.span.start) = offset
      omega
    simp only [linear, if_true, place]

end Fragments

/-! ### Documents -/

section Compilations

variable (options : CompileOptions) (source : String) (scope : Scope)

/-- **When a copy is found in a compiled document.** A byte of a copy is answered with the byte of
the source that it was copied from, which is in a text of the source. From that byte the copy is
found if and only if no segment around it has been cut from the text shorter than the copy. -/
theorem toOutput_copy (offset : Nat) (spot : Spot)
    (found : (layDocument .plain
      ((Prompt.ofSource options source).compile scope).document).spotAt? offset = some spot)
    (copy : spot.piece.exact = true) :
    let prompt := Prompt.ofSource options source
    let map := (prompt.compile scope).mapped.sourceMap
    let origin := spot.origin offset
    map.toInput? offset = some ⟨origin, origin + 1⟩ ∧
      ∃ text, spot.piece.span.IsCutFrom (.root prompt.parsed.root) text ∧
        (⟨offset, offset + 1⟩ ∈ map.toOutput origin ↔
          ∀ segment ∈ map.segments, segment.input.contains origin = true →
            segment.input.IsCutFrom (.root prompt.parsed.root) text →
              spot.piece.span.length ≤ segment.input.length) := by
  intro prompt map origin
  have stems := stems_compile options source scope .plain
  have own := stems _ (spotFrom?_spec found (Nat.zero_le offset)).1
  obtain ⟨text, cut⟩ := own.text copy
  refine ⟨(toInput?_copy found own.fits copy).1, text, cut, ?_⟩
  obtain ⟨first, last⟩ := cut.inside
  have meets : text.span.contains origin = true := by
    have inside := contains_origin found own.fits copy
    rw [Span.contains_iff] at inside ⊢
    exact ⟨Nat.le_trans first inside.1, Nat.lt_of_lt_of_le inside.2 last⟩
  refine (mem_toOutput_iff found own.fits copy).trans ⟨fun shortest => ?_, fun shortest => ?_⟩
  · exact fun segment listed around _ => shortest segment listed around
  · -- A range around the byte that is not cut from the text holds all of it.
    intro segment listed around
    obtain ⟨_, piece, inside, same⟩ := mem_segmentsFrom listed
    have placed := placed_parse options.settings.literalTags source
    have range : segment.input.Stems (.root prompt.parsed.root) := same ▸ (stems _ inside).place
    rcases range.holds_text placed cut.below around meets with holds | part
    · show spot.piece.span.stop - spot.piece.span.start ≤
        segment.input.stop - segment.input.start
      omega
    · exact shortest segment listed around part

end Compilations

/-- A loop that trims a text in its first turn only, as a word comes before it in the second one. -/
def Prompt.trimmedOnce : Prompt :=
  .plain "<p whiteSpace=\"trim\" for=\"i in ['','x']\">\x7b\x7bi\x7d\x7d b</p>"

/-- The shorter copy is found. -/
theorem toOutput_copy_trimmedOnce :
    let compilation := Prompt.trimmedOnce.compile (.ofFrame [])
    ∃ spot, (layDocument .plain compilation.document).spotAt? 0 = some spot ∧
      spot.piece.exact = true ∧ spot.origin 0 = 47 ∧
      ⟨0, 1⟩ ∈ compilation.mapped.sourceMap.toOutput 47 := by
  intro compilation
  have facts : ((layDocument .plain compilation.document).spotAt? 0).map (fun spot =>
      (spot.piece.exact, spot.origin 0, spot.piece.span.length)) = some (true, 47, 1) := by
    decide +kernel
  have shortest : ∀ segment ∈ compilation.mapped.sourceMap.segments,
      1 ≤ segment.input.length := by decide +kernel
  obtain ⟨spot, found, same⟩ := Option.map_eq_some_iff.mp facts
  simp only [Prod.mk.injEq] at same
  obtain ⟨copy, origin, length⟩ := same
  obtain ⟨_, text, _, exactly⟩ := toOutput_copy (.standard (.ofTable []))
    Prompt.trimmedOnce.source (.ofFrame []) 0 spot found copy
  refine ⟨spot, found, copy, origin, ?_⟩
  rw [← origin]
  refine exactly.mpr fun segment listed _ _ => ?_
  rw [length]
  exact shortest segment listed

/-- The copy of the same byte in the second turn is a copy, too, and is not found. -/
theorem toOutput_trimmedOnce :
    let compilation := Prompt.trimmedOnce.compile (.ofFrame [])
    let map := compilation.mapped.sourceMap
    (((layDocument .plain compilation.document).spotAt? 5).map fun spot => spot.piece.exact) =
        some true ∧
      map.toInput? 5 = some ⟨47, 48⟩ ∧ map.toOutput 47 = [⟨0, 1⟩] := by
  decide +kernel

end PromptMarkup
