/-
**Entities.**

* `entityChar`: a character that markup would read as its own, as an entity;
* `escapeEntities`: a text in which markup reads nothing of its own.
-/

namespace PromptMarkup.Text

/-- The entity for a character that has a meaning in markup, any other character itself. -/
def entityChar (char : Char) : List Char :=
  match char with
  | '&' => ['&', 'a', 'm', 'p', ';']
  | '<' => ['&', 'l', 't', ';']
  | '>' => ['&', 'g', 't', ';']
  | '"' => ['&', 'q', 'u', 'o', 't', ';']
  | _ => [char]

/-- A text with entities for the characters that have a meaning in markup. -/
def escapeEntities (text : String) : String := String.ofList (text.toList.flatMap entityChar)

end PromptMarkup.Text
