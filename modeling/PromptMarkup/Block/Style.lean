/-
**How content is presented.**

The names of all styles may be written with blanks around them and in either case.

* `Speaker`: whom content is attributed to;
* `Presentation`, `Spacing`: what content is written as, and what becomes of blanks in text;
* `InlineStyle`, `CaptionStyle`, `CaptionEnding`, `ListStyle`: styles of single components;
* `ListStyle.marker`: what stands in front of an item.
-/

import PromptMarkup.Text.Blank

namespace PromptMarkup

/-! ## Names -/

/-- A name that no choice goes by. -/
structure UnknownName where
  choice : String
  name : String
  deriving DecidableEq, Repr

/-- The words for a name that no choice goes by. -/
def UnknownName.message (unknown : UnknownName) : String :=
  "unknown " ++ unknown.choice ++ " '" ++ unknown.name ++ "'"

/-- The value that a text names in a table. -/
def readName {α : Type} (choice : String) (names : List (String × α)) (text : String) :
    Except UnknownName α :=
  let name := Text.lowerAscii (Text.trimmed text)
  match names.lookup name with
  | some value => .ok value
  | none => .error ⟨choice, name⟩

/-! ## Speakers -/

/-- Whom content is attributed to. -/
inductive Speaker where
  | human
  | ai
  | system
  | tool
  deriving DecidableEq, Repr

namespace Speaker

/-- The name of a speaker. -/
def name : Speaker → String
  | human => "human"
  | ai => "ai"
  | system => "system"
  | tool => "tool"

/-- The role of a speaker in a chat. -/
def role : Speaker → String
  | human => "user"
  | ai => "assistant"
  | system => "system"
  | tool => "tool"

/-- The speaker that a text names. -/
def read (text : String) : Except UnknownName Speaker :=
  readName "speaker" [("human", human), ("user", human), ("ai", ai), ("assistant", ai),
    ("system", system), ("tool", tool)] text

end Speaker

/-! ## Presentations -/

/-- What content is written as. -/
inductive Presentation where
  | markdown
  | html
  | text
  | json
  | yaml
  | xml
  | multimedia
  deriving DecidableEq, Repr

namespace Presentation

/-- The name of a presentation. -/
def name : Presentation → String
  | markdown => "markdown"
  | html => "html"
  | text => "text"
  | json => "json"
  | yaml => "yaml"
  | xml => "xml"
  | multimedia => "multimedia"

/-- A presentation of data. -/
def isSerialization : Presentation → Bool
  | json => true
  | yaml => true
  | xml => true
  | _ => false

/-- The presentation that a text names. -/
def read (name : String) : Except UnknownName Presentation :=
  readName "syntax" [("markdown", markdown), ("md", markdown), ("html", html), ("text", text),
    ("plain", text), ("json", json), ("yaml", yaml), ("yml", yaml), ("xml", xml),
    ("multimedia", multimedia)] name

end Presentation

/-- What becomes of blanks in text. -/
inductive Spacing where
  /-- Text is kept as written. -/
  | pre
  /-- Blanks in a row become one, those at the ends go away. -/
  | filter
  /-- Blanks at the ends go away. -/
  | trim
  deriving DecidableEq, Repr

/-- The treatment of blanks that a text names. -/
def Spacing.read (text : String) : Except UnknownName Spacing :=
  readName "whiteSpace" [("pre", pre), ("filter", filter), ("collapse", filter),
    ("trim", trim)] text

/-! ## Styles of components -/

/-- How a run of inline content stands out. -/
inductive InlineStyle where
  | plain
  | bold
  | italic
  | strikethrough
  | underline
  deriving DecidableEq, Repr

/-- How a caption is written. -/
inductive CaptionStyle where
  | header
  | bold
  | plain
  | hidden
  deriving DecidableEq, Repr

/-- The style that a text names. -/
def CaptionStyle.read (text : String) : Except UnknownName CaptionStyle :=
  readName "captionStyle" [("header", header), ("bold", bold), ("plain", plain),
    ("hidden", hidden)] text

/-- What stands behind a caption that is not a heading. -/
inductive CaptionEnding where
  | colon
  | newline
  | none
  deriving DecidableEq, Repr

/-- The ending that a text names. -/
def CaptionEnding.read (text : String) : Except UnknownName CaptionEnding :=
  readName "captionEnding" [("colon", colon), ("newline", newline), ("none", none)] text

/-- What stands in front of the items of a list. -/
inductive ListStyle where
  | dash
  | star
  | plus
  | decimal
  | latin
  deriving DecidableEq, Repr

/-- The style that a text names. -/
def ListStyle.read (text : String) : Except UnknownName ListStyle :=
  readName "listStyle" [("dash", dash), ("star", star), ("plus", plus), ("decimal", decimal),
    ("latin", latin)] text

/-! ## Markers -/

/-- The letters of a number, the last one first: `a` to `z` stand for one to twenty-six, and there
is no zero. -/
def reversedLatinLetters (number : Nat) : List Char :=
  match number with
  | 0 => []
  | rest + 1 => Char.ofNat ('a'.toNat + rest % 26) :: reversedLatinLetters (rest / 26)
termination_by number
decreasing_by exact Nat.lt_succ_of_le (Nat.div_le_self rest 26)

/-- A number in letters: after `z` comes `aa`. -/
def latinNumeral (number : Nat) : String := String.ofList (reversedLatinLetters number).reverse

/-- The marker of the item at an index, with the blank behind it. -/
def ListStyle.marker (style : ListStyle) (index : Nat) : String :=
  match style with
  | dash => "- "
  | star => "* "
  | plus => "+ "
  | decimal => toString (index + 1) ++ ". "
  | latin => latinNumeral (index + 1) ++ ". "

end PromptMarkup
