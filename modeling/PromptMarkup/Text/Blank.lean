/-
**White space.**

Two notions are in use. Markup knows four blanks only; expressions, trimming and layout go by the
Unicode property `White_Space`.

* `isMarkupBlank`: space, tab, carriage return and line feed;
* `isBlank`: the Unicode property; `isBlank_of_isMarkupBlank` says that it is the wider one;
* `trimStart`, `trimEnd`, `trim`: what is left when blanks are taken off.
-/

namespace PromptMarkup.Text

/-- The four characters that separate words in markup. -/
def isMarkupBlank (char : Char) : Bool :=
  char = ' ' || char = '\t' || char = '\r' || char = '\n'

/-- The Unicode property `White_Space`. -/
def isBlank (char : Char) : Bool :=
  let code := char.toNat
  (0x09 ≤ code && code ≤ 0x0D) || code = 0x20 || code = 0x85 || code = 0xA0 || code = 0x1680
    || (0x2000 ≤ code && code ≤ 0x200A) || code = 0x2028 || code = 0x2029 || code = 0x202F
    || code = 0x205F || code = 0x3000

theorem isBlank_of_isMarkupBlank {char : Char} (blank : isMarkupBlank char = true) :
    isBlank char = true := by
  simp only [isMarkupBlank, Bool.or_eq_true, decide_eq_true_eq] at blank
  rcases blank with ((rfl | rfl) | rfl) | rfl <;> decide

/-! ## Trimming -/

/-- The text without the characters in front that satisfy `drop`. -/
def trimStartBy (drop : Char → Bool) (chars : List Char) : List Char :=
  chars.dropWhile drop

/-- The text without the characters at the end that satisfy `drop`. -/
def trimEndBy (drop : Char → Bool) (chars : List Char) : List Char :=
  (chars.reverse.dropWhile drop).reverse

/-- The text without blanks in front. -/
def trimStart (chars : List Char) : List Char := trimStartBy isBlank chars

/-- The text without blanks at the end. -/
def trimEnd (chars : List Char) : List Char := trimEndBy isBlank chars

/-- The text without blanks at either end. -/
def trim (chars : List Char) : List Char := trimEnd (trimStart chars)

/-- A string without blanks at either end. -/
def trimmed (text : String) : String := String.ofList (trim text.toList)

/-- A string of blanks only. -/
def isBlankText (text : String) : Bool := text.toList.all isBlank

/-! ## Letters of the basic alphabet -/

/-- The small letters of the basic alphabet in place of the capital ones. -/
def lowerAscii (text : String) : String := String.ofList (text.toList.map Char.toLower)

/-- Two strings that differ at most in the case of letters of the basic alphabet. -/
def equalIgnoringCase (first second : String) : Bool := lowerAscii first = lowerAscii second

end PromptMarkup.Text
