/-
**Records of runs.**

A directory keeps a numbered group of files for each run: the document, the context, the
stylesheet if there was one, and the result.

* `numberOf?`: the number in front of the name of a file;
* `nextNumber`: one more than the greatest number in a directory;
* `RunRecord.files`: the files of a run;
* `groupName`: what their names have in common.
-/

import PromptMarkup.Files.Path
import PromptMarkup.Json.Printer
import PromptMarkup.Text.Letters

namespace PromptMarkup.CommandLine

/-! ## Numbers -/

/-- The number that decimal digits write, if it fits into 32 bits. -/
def readDigits? (digits : List Char) : Option UInt32 :=
  if digits.isEmpty || !digits.all Char.isDigit then none
  else
    let value := digits.foldl (fun value digit => value * 10 + (digit.toNat - '0'.toNat)) 0
    if value < UInt32.size then some (UInt32.ofNat value) else none

/-- The number in front of the first point of a name; a plus sign may stand before it. -/
def numberOf? (name : String) : Option UInt32 :=
  match name.toList.takeWhile (· ≠ '.') with
  | '+' :: digits => readDigits? digits
  | digits => readDigits? digits

/-- The number for the next run in a directory with files of these names. Numbers have 32 bits and
start again behind the greatest one. -/
def nextNumber (names : List String) : UInt32 :=
  (names.filterMap numberOf?).foldl max 0 + 1

/-! ## Names -/

/-- The least number of digits of a number in a name. -/
def numberWidth : Nat := 4

/-- The text of a number in a name. -/
def numberText (number : UInt32) : String :=
  let digits := toString number.toNat
  String.ofList (List.replicate (numberWidth - digits.length) '0') ++ digits

/-- A character that stays as it is in the name of a file. -/
def staysInName (char : Char) : Bool := Text.isAlphanumeric char || char = '-' || char = '_'

/-- The name that runs without the path of a document go by. -/
def inputStem : String := "stdin"

/-- The part of a name that tells which document a run is about. -/
def stemOf (path : String) : String :=
  let stem := (Path.stem? path).getD inputStem
  let cleaned := stem.toList.map fun char => if staysInName char then char else '_'
  if cleaned.isEmpty then inputStem else String.ofList cleaned

/-- What the names of the files of a run have in common. -/
def groupName (number : UInt32) (path : String) : String :=
  numberText number ++ "." ++ stemOf path

/-! ## Files -/

/-- What there is to keep of a run. -/
structure RunRecord where
  /-- The path of the document, or a word for the input. -/
  path : String
  source : String
  context : Json
  stylesheet : Option String
  result : String
  resultIsJson : Bool

/-- The endings and the contents of the files of a run. -/
def RunRecord.files (record : RunRecord) : List (String × String) :=
  [(".poml", record.source), (".context.json", record.context.pretty "  ")] ++
    (record.stylesheet.map fun text => (".stylesheet.json", text)).toList ++
    [(if record.resultIsJson then ".result.json" else ".result.txt", record.result)]

end PromptMarkup.CommandLine
