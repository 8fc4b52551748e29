/-
**JSON as text.**

* `Json.compress`: without any blanks;
* `Json.pretty`: one item or field a line, indented by a given text for each level;
* `Json.quote`: a string with its escapes.
-/

import PromptMarkup.Json.Basic
import PromptMarkup.Decimal.Shortest

namespace PromptMarkup.Json

/-- The hexadecimal digits of a code point, four of them. -/
def fourHexDigits (code : Nat) : List Char :=
  let digits := Nat.toDigits 16 code
  List.replicate (4 - digits.length) '0' ++ digits

/-- The written form of one character of a string. -/
def quoteChar (char : Char) : List Char :=
  match char with
  | '"' => ['\\', '"']
  | '\\' => ['\\', '\\']
  | '\x08' => ['\\', 'b']
  | '\x0c' => ['\\', 'f']
  | '\n' => ['\\', 'n']
  | '\r' => ['\\', 'r']
  | '\t' => ['\\', 't']
  | _ => if char.toNat < 0x20 then ['\\', 'u'] ++ fourHexDigits char.toNat else [char]

/-- The written form of a string, with its quotes. -/
def quote (text : String) : String :=
  String.ofList ('"' :: text.toList.flatMap quoteChar ++ ['"'])

/-- The written form of a value that has no parts. -/
def scalarText : Json → String
  | bool true => "true"
  | bool false => "false"
  | integer value => toString value
  | float value => Decimal.jsonStyle.write value
  | string value => quote value
  | _ => "null"

/-! ## Without blanks -/

mutual

/-- A value without any blanks. -/
def compress : Json → String
  | array items => "[" ++ ",".intercalate (compressItems items) ++ "]"
  | object fields => "\x7b" ++ ",".intercalate (compressFields fields) ++ "\x7d"
  | scalar => scalarText scalar

/-- Each item without any blanks. -/
def compressItems : List Json → List String
  | [] => []
  | item :: rest => compress item :: compressItems rest

/-- Each field without any blanks. -/
def compressFields : List (String × Json) → List String
  | [] => []
  | (key, value) :: rest => (quote key ++ ":" ++ compress value) :: compressFields rest

end

/-! ## With line breaks -/

/-- Items between brackets, each on a line of its own, or the bare brackets. -/
def bracketed (opening closing indent margin : String) (items : List String) : String :=
  if items.isEmpty then opening ++ closing
  else
    let inner := "\n" ++ margin ++ indent
    opening ++ inner ++ ("," ++ inner).intercalate items ++ "\n" ++ margin ++ closing

mutual

/-- A value whose first line stands behind `margin`. -/
def prettyAt (indent margin : String) : Json → String
  | array items => bracketed "[" "]" indent margin (prettyItems indent (margin ++ indent) items)
  | object fields =>
    bracketed "\x7b" "\x7d" indent margin (prettyFields indent (margin ++ indent) fields)
  | scalar => scalarText scalar

/-- Each item behind `margin`. -/
def prettyItems (indent margin : String) : List Json → List String
  | [] => []
  | item :: rest => prettyAt indent margin item :: prettyItems indent margin rest

/-- Each field behind `margin`. -/
def prettyFields (indent margin : String) : List (String × Json) → List String
  | [] => []
  | (key, value) :: rest =>
    (quote key ++ ": " ++ prettyAt indent margin value) :: prettyFields indent margin rest

end

/-- A value with one item or field a line. -/
def pretty (indent : String) (value : Json) : String := prettyAt indent "" value

end PromptMarkup.Json
