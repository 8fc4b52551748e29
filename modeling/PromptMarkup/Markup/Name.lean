/-
**Names of tags and attributes.**

* `normalizeName`: the form under which names are looked up;
* `camelCase`: the form under which props and runtime keys are kept;
* `snakeCase`: the form of runtime keys in chat requests;
* `LiteralTags`: the tags whose bodies are kept as written.
-/

import PromptMarkup.Text.Blank
import PromptMarkup.Text.Case

namespace PromptMarkup.Markup

/-- Small letters of the basic alphabet without hyphens and underscores. -/
def normalizeName (name : String) : String :=
  String.ofList ((name.toList.filter fun char => char ≠ '-' && char ≠ '_').map Char.toLower)

/-- The letters of a name in camel case: a hyphen or underscore that is not in front makes the
next letter a capital. `started` says that a letter has been written, `pending` that the next one
becomes a capital. -/
def camelChars (started pending : Bool) : List Char → List Char
  | [] => []
  | char :: rest =>
    if char = '-' || char = '_' then camelChars started started rest
    else (if pending then char.toUpper else char) :: camelChars true false rest

/-- A name in camel case. -/
def camelCase (name : String) : String := String.ofList (camelChars false false name.toList)

/-- An underscore between every small letter or digit and the capital letter behind it. -/
def markWords : List Char → List Char
  | [] => []
  | [last] => [last]
  | first :: next :: rest =>
    if (first.isLower || first.isDigit) && next.isUpper then
      first :: '_' :: markWords (next :: rest)
    else first :: markWords (next :: rest)

/-- A name in snake case. -/
def snakeCase (name : String) : String :=
  String.ofList ((Text.toLower (markWords name.toList)).map fun char =>
    if char = '-' then '_' else char)

/-- The normalized names of the tags whose bodies are kept as written. -/
structure LiteralTags where
  names : List String

namespace LiteralTags

/-- The tags that are always literal. -/
def standard : LiteralTags :=
  ⟨["text", "output-schema", "tool-definition", "tool", "stylesheet"].map normalizeName⟩

/-- One more literal tag. -/
def insert (tags : LiteralTags) (name : String) : LiteralTags :=
  let key := normalizeName name
  if key ∈ tags.names then tags else ⟨tags.names ++ [key]⟩

/-- The body of a tag is kept as written. -/
def contains (tags : LiteralTags) (name : String) : Bool := normalizeName name ∈ tags.names

end LiteralTags

end PromptMarkup.Markup
