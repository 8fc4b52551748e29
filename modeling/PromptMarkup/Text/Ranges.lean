/-
**Sets of code points.**

A property of characters is a list of ranges of code points in ascending order, both ends included.

* `Ranges.holds`: membership;
* `Ranges.Ascending`: the ranges do not touch one another, so that each member is in one of them.
-/

namespace PromptMarkup.Text

/-- Ranges of code points, both ends included. -/
abbrev Ranges := List (Nat × Nat)

namespace Ranges

/-- A code point lies in one of the ranges. -/
def holds : Ranges → Nat → Bool
  | [], _ => false
  | (first, last) :: rest, code => (first ≤ code && code ≤ last) || holds rest code

/-- Every range is in order and ends below the start of the next one. -/
def Ascending : Ranges → Prop
  | [] => True
  | [(first, last)] => first ≤ last
  | (first, last) :: next :: rest => first ≤ last ∧ last < next.1 ∧ Ascending (next :: rest)

end Ranges

end PromptMarkup.Text
