/-
**Lines and columns.**

Lines are counted from one and end behind a line feed; columns count the bytes of a line from one.

* `LineIndex.ofSource`: where the lines of a text start;
* `LineIndex.location`: the line and column of an offset;
* `LineIndex.offset`: the offset of a line and column.
-/

import PromptMarkup.Text.Cut

namespace PromptMarkup

/-- The number of machine words. Offsets, lines and columns are words, and a sum of words that is
none starts again at zero. -/
def wordCount : Nat := UInt64.size

/-- A place in a text. -/
structure Location where
  line : Nat
  column : Nat
  offset : Nat
  deriving DecidableEq, Repr, Inhabited

/-- A place as text. -/
def Location.text (location : Location) : String :=
  toString location.line ++ ":" ++ toString location.column

/-- The places where the lines of a text start, and its number of bytes. -/
structure LineIndex where
  starts : List Nat
  size : Nat

namespace LineIndex

/-- The offsets behind the line feeds of a text that starts at `offset`. -/
def startsAfter (offset : Nat) : List Char → List Nat
  | [] => []
  | char :: rest =>
    let next := offset + char.utf8Size
    if char = '\n' then next :: startsAfter next rest else startsAfter next rest

/-- The lines of a text. -/
def ofSource (source : String) : LineIndex :=
  ⟨0 :: startsAfter 0 source.toList, Text.byteLength source.toList⟩

/-- The line and column of an offset; one past the end counts as the end. -/
def location (index : LineIndex) (offset : Nat) : Location :=
  let offset := min offset index.size
  let before := index.starts.takeWhile fun start => start ≤ offset
  ⟨before.length, offset - before.getLastD 0 + 1, offset⟩

/-- The offset of a line and column; a line that is not there stands for the end, and a column
past the end of the text for the end too, as far as words can count. -/
def offset (index : LineIndex) (line column : Nat) : Nat :=
  if line = 0 then index.size
  else
    match index.starts[line - 1]? with
    | some start => min ((start + (column - 1)) % wordCount) index.size
    | none => index.size

/-- The number of lines. -/
def lineCount (index : LineIndex) : Nat := index.starts.length

end LineIndex

end PromptMarkup
