/-
**Values as YAML.**

Collections are written in block style, two columns deeper for each level, with sequences in
mappings at the column of the mapping. A text is plain when it is read back as a text.

* `Yaml.isAmbiguous`: a plain text that would be read as something else;
* `Yaml.textStyle`: how a text is written;
* `Yaml.write`: the written form of a value.
-/

import PromptMarkup.Decimal.Reader
import PromptMarkup.Decimal.Shortest
import PromptMarkup.Json.Basic
import PromptMarkup.Text.Blank
import PromptMarkup.Text.Cut

namespace PromptMarkup.Yaml

/-! ## Characters -/

/-- A character that ends a line. -/
def isBreak (char : Char) : Bool :=
  char = '\n' || char = '\r' || char = '\u0085' || char = '\u2028' || char = '\u2029'

/-- A character that stands for itself: anything but control characters, the byte order mark and
the last two code points of the first plane. -/
def isPrintable (char : Char) : Bool :=
  let code := char.toNat
  code = 0x0A || (0x20 ≤ code && code ≤ 0x7E)
    || (0xA0 ≤ code && code ≠ 0xFEFF && code ≠ 0xFFFE && code ≠ 0xFFFF)

/-- A character that has a meaning at the start of a plain text. -/
def isIndicator (char : Char) : Bool := "#,[]\x7b\x7d&*!|>'\"%@\x60".toList.contains char

/-! ## Ambiguous texts -/

/-- The words that stand for other values than texts. -/
def reservedWords : List String :=
  ["null", "Null", "NULL", "~", "true", "True", "TRUE", "false", "False", "FALSE", ".inf", ".Inf",
    ".INF", "+.inf", "+.Inf", "+.INF", "-.inf", "-.Inf", "-.INF", ".nan", ".NaN", ".NAN"]

/-- The value of a hexadecimal digit. -/
def hexDigit? (char : Char) : Option Nat :=
  if char.isDigit then some (char.toNat - '0'.toNat)
  else if 'a' ≤ char ∧ char ≤ 'f' then some (char.toNat - 'a'.toNat + 10)
  else if 'A' ≤ char ∧ char ≤ 'F' then some (char.toNat - 'A'.toNat + 10)
  else none

/-- The number that some digits denote in a base of up to sixteen. -/
def readBase? (base : Nat) (digits : List Char) : Option Nat :=
  if digits.isEmpty then none
  else
    digits.foldlM (fun value char =>
      match hexDigit? char with
      | some digit => if digit < base then some (value * base + digit) else none
      | none => none) 0

/-- A number with a prefix for its base, of at most a hundred and twenty-eight bits. -/
def isBaseNumber (chars : List Char) : Bool :=
  let (negative, rest) := Decimal.cutSign chars
  let number := match rest with
    | '0' :: 'x' :: digits => readBase? 16 digits
    | '0' :: 'o' :: digits => readBase? 8 digits
    | '0' :: 'b' :: digits => readBase? 2 digits
    | _ => none
  match number with
  | some value => if negative then value ≤ Nat.pow 2 127 else value < Nat.pow 2 128
  | none => false

/-- A text that denotes a finite number. -/
def isDecimalNumber (chars : List Char) : Bool := (Decimal.readFloat? chars).any Float.isFinite

/-- A whole number with zeros in front, of any size. -/
def isPaddedNumber (chars : List Char) : Bool :=
  match (Decimal.cutSign chars).2 with
  | '0' :: digits => !digits.isEmpty && digits.all Char.isDigit
  | _ => false

/-- A text that would be read as something other than a text, or that looks like a number. -/
def isAmbiguous (text : String) : Bool :=
  text.isEmpty || reservedWords.contains text || isBaseNumber text.toList
    || isDecimalNumber text.toList || isPaddedNumber text.toList

/-! ## Styles -/

/-- How a text is written. -/
inductive TextStyle where
  | plain
  | singleQuoted
  | doubleQuoted
  /-- Line by line. -/
  | literal
  deriving DecidableEq, Repr

/-- Some characters begin with a blank or are none. -/
def atBlank : List Char → Bool
  | [] => true
  | char :: _ => char = ' '

/-- The text holds a mark that would end a plain text: a colon in front of a blank, or a number
sign behind one. -/
def hasMark : List Char → Bool
  | [] => false
  | ':' :: rest => atBlank rest || hasMark rest
  | ' ' :: '#' :: _ => true
  | _ :: rest => hasMark rest

/-- The text begins with a mark. -/
def beginsWithMark : List Char → Bool
  | [] => false
  | '-' :: '-' :: '-' :: _ => true
  | '.' :: '.' :: '.' :: _ => true
  | first :: rest => isIndicator first || ((first = '?' || first = '-') && atBlank rest)

/-- A text that may stand without quotes. -/
def plainAllowed (chars : List Char) : Bool :=
  chars.all (fun char => isPrintable char && !isBreak char) && !atBlank chars
    && chars.getLast? ≠ some ' ' && !beginsWithMark chars && !hasMark chars

/-- A blank stands in front of the end of a line. -/
def blankBeforeBreak (chars : List Char) : Bool :=
  (chars.zip chars.tail).any fun (first, second) => first = ' ' && isBreak second

/-- A blank stands at the start of a line other than the first. -/
def blankAfterBreak (chars : List Char) : Bool :=
  (chars.zip chars.tail).any fun (first, second) => isBreak first && second = ' '

/-- A text that may stand between single quotes. -/
def singleAllowed (chars : List Char) : Bool :=
  chars.all isPrintable && !blankBeforeBreak chars && !blankAfterBreak chars

/-- A text that may be written line by line. -/
def literalAllowed (chars : List Char) : Bool :=
  chars.all isPrintable && !blankBeforeBreak chars && chars.getLast? ≠ some ' '

/-- How a text is written. -/
def textStyle (text : String) : TextStyle :=
  let chars := text.toList
  if chars.contains '\n' then
    if literalAllowed chars then .literal else .doubleQuoted
  else if !isAmbiguous text && plainAllowed chars then .plain
  else if singleAllowed chars then .singleQuoted
  else .doubleQuoted

/-! ## Texts -/

/-- The blanks in front of a column. -/
def margin (column : Nat) : List Char := List.replicate column ' '

/-- Lines of which all but the empty ones stand at a column. -/
def indentLines (column : Nat) (atStart : Bool) : List Char → List Char
  | [] => []
  | char :: rest =>
    if isBreak char then char :: indentLines column true rest
    else (if atStart then margin column else []) ++ char :: indentLines column false rest

/-- A text line by line. The head tells whether the first line begins with a blank or is empty,
and what becomes of the line feeds at the end. -/
def literalText (column : Nat) (chars : List Char) : List Char :=
  let indentation := match chars with
    | [] => []
    | first :: _ => if first = ' ' || isBreak first then ['2'] else []
  let chomping := match chars.reverse with
    | [] => ['-']
    | [last] => if isBreak last then ['+'] else ['-']
    | last :: before :: _ =>
      if !isBreak last then ['-'] else if isBreak before then ['+'] else []
  '|' :: indentation ++ chomping ++ '\n' :: indentLines column true chars

/-- A text between single quotes; quotes in it are written twice. -/
def singleQuotedText (column : Nat) (chars : List Char) : List Char :=
  let doubled := chars.flatMap fun char => if char = '\'' then ['\'', '\''] else [char]
  let closing := if chars.getLast?.any isBreak then margin column else []
  '\'' :: indentLines column false doubled ++ closing ++ ['\'']

/-- The hexadecimal digits of a number in capital letters, at least `width` of them. -/
def hexDigits (width number : Nat) : List Char :=
  let digits := (Nat.toDigits 16 number).map Char.toUpper
  List.replicate (width - digits.length) '0' ++ digits

/-- A character between double quotes. -/
def escapeChar (char : Char) : List Char :=
  match char with
  | '\x00' => ['\\', '0']
  | '\x07' => ['\\', 'a']
  | '\x08' => ['\\', 'b']
  | '\t' => ['\\', 't']
  | '\n' => ['\\', 'n']
  | '\x0b' => ['\\', 'v']
  | '\x0c' => ['\\', 'f']
  | '\r' => ['\\', 'r']
  | '\x1b' => ['\\', 'e']
  | '"' => ['\\', '"']
  | '\\' => ['\\', '\\']
  | '\u0085' => ['\\', 'N']
  | '\u2028' => ['\\', 'L']
  | '\u2029' => ['\\', 'P']
  | _ =>
    let code := char.toNat
    if isPrintable char then [char]
    else if code ≤ 0xFF then '\\' :: 'x' :: hexDigits 2 code
    else '\\' :: 'u' :: hexDigits 4 code

/-- A text between double quotes. -/
def doubleQuotedText (chars : List Char) : List Char :=
  '"' :: chars.flatMap escapeChar ++ ['"']

/-- The written form of a text of which further lines stand at a column. -/
def textAt (column : Nat) (text : String) : String :=
  let chars := text.toList
  match textStyle text with
  | .plain => text
  | .singleQuoted => String.ofList (singleQuotedText column chars)
  | .doubleQuoted => String.ofList (doubleQuotedText chars)
  | .literal => String.ofList (literalText column chars)

/-! ## Collections -/

/-- Text on a line of its own behind some other text. -/
def nextLine (column : Nat) (before after : String) : String :=
  let ended := before.toList.getLast?.any isBreak
  before ++ (if ended then "" else "\n") ++ String.ofList (margin column) ++ after

/-- Entries at a column, each on a line of its own; the first one starts where it stands. -/
def entries (column : Nat) : List String → String
  | [] => ""
  | [entry] => entry
  | entry :: rest => nextLine column entry (entries column rest)

/-- A key that does not fit in front of its colon. -/
def isLongKey (key : String) : Bool :=
  key.toList.any isBreak || 128 < Text.byteLength key.toList

/-- What stands between a short key and its value, and the column of the value. -/
def valuePlace (column : Nat) (value : Json) : String × Nat :=
  match value with
  | .array (_ :: _) => ("\n" ++ String.ofList (margin column), column)
  | .object (_ :: _) => ("\n" ++ String.ofList (margin (column + 2)), column + 2)
  | _ => (" ", column + 2)

mutual

/-- The written form of a value of which further lines stand at a column. -/
def writeAt (column : Nat) : Json → String
  | .null => "null"
  | .bool value => if value then "true" else "false"
  | .integer value => toString value
  | .float value => Decimal.yamlStyle.write value
  | .string text => textAt column text
  | .array items => if items.isEmpty then "[]" else entries column (itemEntries column items)
  | .object fields =>
    if fields.isEmpty then "\x7b\x7d" else entries column (fieldEntries column fields)

/-- The written forms of the items of a sequence. -/
def itemEntries (column : Nat) : List Json → List String
  | [] => []
  | item :: rest => ("- " ++ writeAt (column + 2) item) :: itemEntries column rest

/-- The written forms of the fields of a mapping. -/
def fieldEntries (column : Nat) : List (String × Json) → List String
  | [] => []
  | (key, value) :: rest =>
    let entry :=
      if isLongKey key then
        nextLine column ("? " ++ textAt (column + 2) key) (": " ++ writeAt (column + 2) value)
      else
        let (gap, place) := valuePlace column value
        textAt (column + 2) key ++ ":" ++ gap ++ writeAt place value
    entry :: fieldEntries column rest

end

/-- The written form of a value, without blanks at the end. -/
def write (value : Json) : String :=
  let column := match value with
    | .string _ => 2
    | _ => 0
  String.ofList (Text.trimEnd (writeAt column value).toList)

end PromptMarkup.Yaml
