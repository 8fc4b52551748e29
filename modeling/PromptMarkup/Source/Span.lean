/-
**Ranges of a source text.**

Positions are byte offsets; a range holds its start and not its stop.

* `Span`: a range, with membership, covering and shifting.
-/

namespace PromptMarkup

/-- The half-open range of bytes from `start` to `stop`. -/
structure Span where
  start : Nat
  stop : Nat
  deriving DecidableEq, Repr, Inhabited

namespace Span

/-- The number of bytes of a range. -/
def length (span : Span) : Nat := span.stop - span.start

/-- A range without bytes. -/
def isEmpty (span : Span) : Bool := span.stop ≤ span.start

/-- An offset lies in the range. -/
def contains (span : Span) (offset : Nat) : Bool := span.start ≤ offset && offset < span.stop

/-- An offset lies in the range or at its end, where a cursor behind the last character stands. -/
def touches (span : Span) (offset : Nat) : Bool := span.start ≤ offset && offset ≤ span.stop

/-- Another range lies in this one. -/
def containsSpan (span other : Span) : Bool := span.start ≤ other.start && other.stop ≤ span.stop

/-- The least range around two ranges. -/
def cover (first second : Span) : Span :=
  ⟨min first.start second.start, max first.stop second.stop⟩

/-- A range moved behind `base` bytes. -/
def shift (span : Span) (base : Nat) : Span := ⟨span.start + base, span.stop + base⟩

/-- A range as text. -/
def text (span : Span) : String := toString span.start ++ ".." ++ toString span.stop

end Span

end PromptMarkup
