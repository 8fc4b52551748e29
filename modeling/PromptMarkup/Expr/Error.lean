/-
**What can be wrong with an expression.**

* `SyntaxProblem`: why a text is not an expression;
* `TypeProblem`: why an operation does not apply to its operands;
* `ExprError`: all causes, with the words for them.
-/

namespace PromptMarkup

/-- Why a text is not an expression. -/
inductive SyntaxProblem where
  | invalidNumber (text : String)
  | unterminatedString
  | unexpectedCharacter (char : Char)
  | nestsTooDeeply
  | expected (mark : String)
  | unexpectedToken (text : String)
  | unexpectedEnd
  deriving DecidableEq, Repr

/-- The words for a fault in the text of an expression. -/
def SyntaxProblem.message : SyntaxProblem → String
  | invalidNumber text => "invalid number '" ++ text ++ "'"
  | unterminatedString => "unterminated string literal"
  | unexpectedCharacter char => "unexpected character '" ++ char.toString ++ "'"
  | nestsTooDeeply => "expression nests too deeply"
  | expected mark => "expected '" ++ mark ++ "'"
  | unexpectedToken text => "unexpected token '" ++ text ++ "'"
  | unexpectedEnd => "unexpected end of expression"

/-- Why an operation does not apply to its operands. -/
inductive TypeProblem where
  | nullProperty (name : String)
  | notSearchable (typeName : String)
  | invalidCount (method text : String)
  | missingArgument (method : String) (index : Nat)
  | tooManyPlaces
  | tooLong
  | calledOnNull (method : String)
  | numberExpected (method : String)
  | schemaExpected (method : String)
  | objectExpected (method : String)
  | arrayExpected (method : String)
  deriving DecidableEq, Repr

/-- The words for operands that do not fit. -/
def TypeProblem.message : TypeProblem → String
  | nullProperty name => "Cannot read properties of null (reading '" ++ name ++ "')"
  | notSearchable typeName => "Cannot use 'in' operator to search in " ++ typeName
  | invalidCount method text => "Invalid count value for " ++ method ++ ": " ++ text
  | missingArgument method index =>
    method ++ " expects an argument at position " ++ toString index
  | tooManyPlaces => "toFixed() digits argument must be between 0 and 100"
  | tooLong => "repeat() result is too long"
  | calledOnNull method => "Object." ++ method ++ " called on null"
  | numberExpected method => method ++ "() expects a number"
  | schemaExpected method => "z." ++ method ++ "() expects a schema"
  | objectExpected method => "z." ++ method ++ "() expects an object"
  | arrayExpected method => "z." ++ method ++ "() expects an array"

/-- Why an expression has no value. -/
inductive ExprError where
  | malformed (problem : SyntaxProblem) (offset : Nat)
  | undefined (name : String)
  | type (problem : TypeProblem)
  | notCallable (name : String)
  | unknownMethod (typeName method : String)
  /-- A text handed over as JSON is none. -/
  | invalidJson
  deriving DecidableEq, Repr

/-- The words for an expression that has no value. -/
def ExprError.message : ExprError → String
  | malformed problem offset =>
    "syntax error at offset " ++ toString offset ++ ": " ++ problem.message
  | undefined name => "'" ++ name ++ "' is not defined"
  | type problem => problem.message
  | notCallable name => "'" ++ name ++ "' is not a function"
  | unknownMethod typeName method => typeName ++ " has no method '" ++ method ++ "'"
  | invalidJson => "JSON.parse: not a JSON text"

end PromptMarkup
