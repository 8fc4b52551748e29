/-
**What can be wrong with markup.**

* `Problem`: the causes;
* `Problem.message`, `Problem.severity`: the words for them, and how grave they are;
* `Problem.report`: the diagnostic of a problem at a range.
-/

import PromptMarkup.Source.Diagnostic

namespace PromptMarkup.Markup

/-- The greatest number of elements inside one another. -/
def elementDepthLimit : Nat := 128

/-- What can be wrong with markup. -/
inductive Problem where
  | mismatchedClose (found expected : String)
  | strayClose (name : String)
  | tooDeep
  | neverClosed (name : String)
  | unterminatedOpen (name : String)
  | literalNeverClosed (name : String)
  | unboundTemplate
  | unexpectedInTag (text name : String)
  | unterminatedClose (name : String)
  | unquotedValue (key : String)
  | missingValue (key : String)
  | missingQuote (key : String)
  | notAnIterator
  | unclosedTemplate
  | emptyTemplate
  | unclosedComment
  | emptyPragma
  deriving DecidableEq, Repr

namespace Problem

/-- The words for a problem. -/
def message : Problem → String
  | mismatchedClose found expected =>
    "Unexpected closing tag </" ++ found ++ ">; expected </" ++ expected ++ ">"
  | strayClose name => "Closing tag </" ++ name ++ "> has no matching open tag"
  | tooDeep => "Elements are nested more than " ++ toString elementDepthLimit ++ " levels deep"
  | neverClosed name => "Element <" ++ name ++ "> is never closed"
  | unterminatedOpen name => "Open tag <" ++ name ++ "> is not terminated"
  | literalNeverClosed name => "Literal element <" ++ name ++ "> is never closed"
  | unboundTemplate => "Template is not bound to an attribute"
  | unexpectedInTag text name => "Unexpected '" ++ text ++ "' in tag <" ++ name ++ ">"
  | unterminatedClose name => "Closing tag </" ++ name ++ "> is not terminated"
  | unquotedValue key => "Value of attribute '" ++ key ++ "' should be quoted"
  | missingValue key => "Attribute '" ++ key ++ "' is missing a value"
  | missingQuote key => "Value of attribute '" ++ key ++ "' is missing its closing quote"
  | notAnIterator => "Expected 'item in expression' in for attribute"
  | unclosedTemplate => "Template is missing its closing '\x7d\x7d'"
  | emptyTemplate => "Template expression is empty"
  | unclosedComment => "Comment is missing its closing '-->'"
  | emptyPragma => "Pragma has no directive"

/-- A value without quotes and a pragma without a directive are only worth a warning. -/
def severity : Problem → Severity
  | unquotedValue _ => .warning
  | emptyPragma => .warning
  | _ => .error

/-- The diagnostic of a problem at a range. -/
def report (problem : Problem) (span : Span) : Diagnostic :=
  ⟨span, problem.severity, .parse, problem.message⟩

end Problem

end PromptMarkup.Markup
