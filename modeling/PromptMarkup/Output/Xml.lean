/-
**Values as XML.**

The fields of an object are elements of their name, the items of an array elements named `item`.

* `Xml.write`: the written form of a value.
-/

import PromptMarkup.Json.Printer
import PromptMarkup.Text.Blank
import PromptMarkup.Text.Entities

namespace PromptMarkup.Xml

/-- An element on one line. -/
def leaf (margin tag text : String) : String :=
  margin ++ "<" ++ tag ++ ">" ++ text ++ "</" ++ tag ++ ">\n"

/-- An element around some lines. -/
def element (margin tag lines : String) : String :=
  margin ++ "<" ++ tag ++ ">\n" ++ lines ++ margin ++ "</" ++ tag ++ ">\n"

mutual

/-- The element of a value behind a margin. -/
def writeAt (margin tag : String) : Json → String
  | .object fields => element margin tag (writeFields (margin ++ "  ") fields)
  | .array items => element margin tag (writeItems (margin ++ "  ") items)
  | .null => margin ++ "<" ++ tag ++ "/>\n"
  | .string text => leaf margin tag (Text.escapeEntities text)
  | scalar => leaf margin tag scalar.scalarText

/-- The elements of some items. -/
def writeItems (margin : String) : List Json → String
  | [] => ""
  | item :: rest => writeAt margin "item" item ++ writeItems margin rest

/-- The elements of some fields. -/
def writeFields (margin : String) : List (String × Json) → String
  | [] => ""
  | (key, value) :: rest => writeAt margin key value ++ writeFields margin rest

end

/-- The written form of a value, without blanks at the end. -/
def write (value : Json) : String :=
  String.ofList (Text.trimEnd (writeAt "" "data" value).toList)

end PromptMarkup.Xml
