/-
**Source maps.**

A source map tells, for the bytes of the output, which bytes of the source they came from.

* `SourceMap.ofFragment`: the map of a fragment; every byte of its text is in one segment;
* `SourceMap.toInput?`: the range of the source behind a byte of the output;
* `SourceMap.toOutput`: the ranges of the output behind a byte of the source.
-/

import PromptMarkup.Output.Fragment

namespace PromptMarkup

/-- A range of the output with the range of the source that it came from. -/
structure Segment where
  input : Span
  output : Span
  deriving DecidableEq, Repr

namespace Segment

/-- The two ranges have the same length, so that their bytes belong together one by one. -/
def isLinear (segment : Segment) : Bool := segment.input.length = segment.output.length

/-- A segment as JSON. -/
def toJson (segment : Segment) : Json :=
  .object [("inputStart", .integer segment.input.start), ("inputEnd", .integer segment.input.stop),
    ("outputStart", .integer segment.output.start), ("outputEnd", .integer segment.output.stop)]

end Segment

/-- The segments of an output in order. -/
structure SourceMap where
  segments : List Segment
  deriving DecidableEq, Repr

namespace SourceMap

/-- The segments of some pieces behind `offset` bytes of output. -/
def segmentsFrom (offset : Nat) : List Piece → List Segment
  | [] => []
  | piece :: rest =>
    if piece.text.isEmpty then segmentsFrom offset rest
    else
      let stop := offset + piece.size
      ⟨piece.span, ⟨offset, stop⟩⟩ :: segmentsFrom stop rest

/-- The source map of a fragment. -/
def ofFragment (fragment : Fragment) : SourceMap := ⟨segmentsFrom 0 fragment⟩

/-- The range of the source behind a byte of the output: one byte where bytes belong together,
else the range of the segment. -/
def toInput? (map : SourceMap) (offset : Nat) : Option Span :=
  (map.segments.find? fun segment => segment.output.contains offset).map fun segment =>
    if segment.isLinear then
      let start := segment.input.start + (offset - segment.output.start)
      ⟨start, start + 1⟩
    else segment.input

/-- The segments whose range of the source is the narrowest around a byte. -/
def narrowestAt (map : SourceMap) (offset : Nat) : List Segment :=
  let around := map.segments.filter fun segment => segment.input.contains offset
  match (around.map fun segment => segment.input.length).min? with
  | some narrowest => around.filter fun segment => segment.input.length = narrowest
  | none => []

/-- The ranges of the output behind a byte of the source, found in the narrowest ranges around
it. -/
def toOutput (map : SourceMap) (offset : Nat) : List Span :=
  (map.narrowestAt offset).map fun segment =>
    if segment.isLinear then
      let start := segment.output.start + (offset - segment.input.start)
      ⟨start, start + 1⟩
    else segment.output

/-- A source map as JSON. -/
def toJson (map : SourceMap) : Json :=
  .object [("segments", .array (map.segments.map Segment.toJson))]

end SourceMap

/-- A text with its source map. -/
structure MappedOutput where
  text : String
  sourceMap : SourceMap

namespace MappedOutput

/-- The text and the source map of a fragment. -/
def ofFragment (fragment : Fragment) : MappedOutput := ⟨fragment.text, .ofFragment fragment⟩

/-- A text with its source map as JSON. -/
def toJson (output : MappedOutput) : Json :=
  .object [("text", .string output.text), ("source_map", output.sourceMap.toJson)]

end MappedOutput

end PromptMarkup
