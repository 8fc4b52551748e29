/-
**From tokens to expressions.**

Operators stand on levels of precedence: the conditional binds least, then come `??`, `||`, `&&`,
equality, comparison, sums, products, the operators in front of an operand, and last accesses and
calls. A budget bounds how deeply an expression nests: brackets, operators and accesses all take
one from it.

* `operatorAt?`: the operator of a level that a token is;
* `parseExpr`, `parseLevel`, `parseUnary`, `parseAccess`: an expression, a chain of one level, an
  operand, an operand with its accesses, each with the tokens behind it;
* `Expr.parse`: the expression that a text is.
-/

import PromptMarkup.Expr.Basic
import PromptMarkup.Expr.Token
import PromptMarkup.Text.Quoted
import PromptMarkup.Value.Number

namespace PromptMarkup.Expr

/-- How deeply an expression may nest. -/
def depthLimit : Nat := 128

/-- A parser: it takes something from the front of some tokens and leaves the others. -/
abbrev Reader (α : Type) := List Token → Except ExprError (α × List Token)

/-! ## Tokens -/

/-- The offset of the next token. -/
def nextOffset (tokens : List Token) : Nat := tokens.head?.elim 0 fun token => token.span.start

/-- The error that the next token is not expected. -/
def unexpected (tokens : List Token) : ExprError :=
  let offset := nextOffset tokens
  match tokens with
  | [] => .malformed .unexpectedEnd offset
  | token :: _ =>
    match token.kind with
    | .number value => .malformed (.unexpectedToken (Number.numberText value)) offset
    | .string value => .malformed (.unexpectedToken (Text.quoted value)) offset
    | .name text => .malformed (.unexpectedToken text) offset
    | .mark text => .malformed (.unexpectedToken text) offset
    | .stop => .malformed .unexpectedEnd offset

/-- The tokens behind a punctuator, if it comes next. -/
def skipMark? (mark : String) (tokens : List Token) : Option (List Token) :=
  match tokens with
  | ⟨.mark text, _⟩ :: rest => if text = mark then some rest else none
  | _ => none

/-- The tokens behind a punctuator, which has to come next. -/
def expectMark (mark : String) (tokens : List Token) : Except ExprError (List Token) :=
  match skipMark? mark tokens with
  | some rest => .ok rest
  | none => .error (.malformed (.expected mark) (nextOffset tokens))

/-- A name, which has to come next. -/
def expectName (tokens : List Token) : Except ExprError (String × List Token) :=
  match tokens with
  | ⟨.name text, _⟩ :: rest => .ok (text, rest)
  | _ => .error (unexpected tokens)

/-- The error that an expression nests too deeply in front of some tokens. -/
def tooDeep (tokens : List Token) : ExprError :=
  .malformed .nestsTooDeeply (nextOffset tokens)

/-! ## Operators -/

/-- An operator between two operands. -/
inductive Operator where
  | binary (op : BinaryOp)
  | logical (op : LogicalOp)
  deriving DecidableEq, Repr

/-- An operator applied to two operands. -/
def Operator.join (operator : Operator) (left right : Expr) : Expr :=
  match operator with
  | binary op => .binary op left right
  | logical op => .logical op left right

/-- The number of levels of operators between two operands. -/
def levelCount : Nat := 7

/-- The operators of a level with their marks; level zero binds least. -/
def levelOperators : Nat → List (String × Operator)
  | 0 => [("??", .logical .nullish)]
  | 1 => [("||", .logical .or)]
  | 2 => [("&&", .logical .and)]
  | 3 => [("==", .binary .equal), ("!=", .binary .notEqual), ("===", .binary .strictEqual),
      ("!==", .binary .strictNotEqual)]
  | 4 => [("<", .binary .less), (">", .binary .greater), ("<=", .binary .lessEqual),
      (">=", .binary .greaterEqual)]
  | 5 => [("+", .binary .add), ("-", .binary .subtract)]
  | 6 => [("*", .binary .multiply), ("/", .binary .divide), ("%", .binary .remainder)]
  | _ => []

/-- The operator of a level that comes next, and the tokens behind it. The word `in` is an operator
on the level of comparisons. -/
def operatorAt? (level : Nat) (tokens : List Token) : Option (Operator × List Token) :=
  match tokens with
  | ⟨.mark text, _⟩ :: rest => ((levelOperators level).lookup text).map (·, rest)
  | ⟨.name text, _⟩ :: rest =>
    if level = 4 ∧ text = "in" then some (.binary .contains, rest) else none
  | _ => none

/-- The operator in front of an operand that comes next, and the tokens behind it. -/
def unaryAt? (tokens : List Token) : Option (UnaryOp × List Token) :=
  match tokens with
  | ⟨.mark "!", _⟩ :: rest => some (.not, rest)
  | ⟨.mark "-", _⟩ :: rest => some (.negate, rest)
  | ⟨.mark "+", _⟩ :: rest => some (.plus, rest)
  | ⟨.name "typeof", _⟩ :: rest => some (.typeOf, rest)
  | _ => none

/-- The expression that a name stands for. -/
def nameExpr : String → Expr
  | "true" => .literal (.bool true)
  | "false" => .literal (.bool false)
  | "null" => .literal .null
  | "undefined" => .literal .null
  | text => .name text

/-! ## Lists -/

/-- Items up to a closing mark with commas between them and perhaps one behind the last. There are
at most as many as `fuel`, for which the number of tokens is enough. -/
def parseItems {α : Type} (item : Reader α) (closing : String) :
    Nat → Reader (List α)
  | 0, tokens => .error (unexpected tokens)
  | fuel + 1, tokens =>
    match skipMark? closing tokens with
    | some rest => .ok ([], rest)
    | none => do
      let (first, tokens) ← item tokens
      match skipMark? "," tokens with
      | some tokens =>
        let (others, tokens) ← parseItems item closing fuel tokens
        return (first :: others, tokens)
      | none => return ([first], ← expectMark closing tokens)

/-- The name of a field of an object. -/
def parseKey (tokens : List Token) : Except ExprError (String × List Token) :=
  match tokens with
  | ⟨.name text, _⟩ :: rest => .ok (text, rest)
  | ⟨.string text, _⟩ :: rest => .ok (text, rest)
  | ⟨.number value, _⟩ :: rest => .ok (Number.numberText value, rest)
  | _ => .error (unexpected tokens)

/-- A field of an object; a key on its own stands for the name of that text. -/
def parseField (value : Reader Expr) (tokens : List Token) :
    Except ExprError ((String × Expr) × List Token) := do
  let (key, tokens) ← parseKey tokens
  match skipMark? ":" tokens with
  | some tokens =>
    let (value, tokens) ← value tokens
    return ((key, value), tokens)
  | none => return ((key, .name key), tokens)

/-! ## Expressions -/

/-- How an access begins. -/
inductive AccessMark where
  | member
  | optional
  | index
  | call
  deriving DecidableEq, Repr

/-- The access that comes next, and the tokens behind its mark. -/
def accessAt? (tokens : List Token) : Option (AccessMark × List Token) :=
  match tokens with
  | ⟨.mark ".", _⟩ :: rest => some (.member, rest)
  | ⟨.mark "?.", _⟩ :: rest => some (.optional, rest)
  | ⟨.mark "[", _⟩ :: rest => some (.index, rest)
  | ⟨.mark "(", _⟩ :: rest => some (.call, rest)
  | _ => none

/-- One access to an expression behind its mark; `inner` parses the expressions in it. -/
def parseAccess (inner : Reader Expr) (target : Expr) (access : AccessMark)
    (tokens : List Token) : Except ExprError (Expr × List Token) :=
  let member := fun optional tokens => do
    let (property, tokens) ← expectName tokens
    return (Expr.member target property optional, tokens)
  let index := fun optional tokens => do
    let (key, tokens) ← inner tokens
    return (Expr.index target key optional, ← expectMark "]" tokens)
  let call := fun optional tokens => do
    let (args, tokens) ← parseItems inner ")" tokens.length tokens
    return (Expr.call target args optional, tokens)
  match access with
  | .member => member false tokens
  | .index => index false tokens
  | .call => call false tokens
  | .optional =>
    match skipMark? "(" tokens, skipMark? "[" tokens with
    | some tokens, _ => call true tokens
    | none, some tokens => index true tokens
    | none, none => member true tokens

/-- An operand without operators; `inner` parses the expressions in it. -/
def parsePrimary (inner : Reader Expr) (tokens : List Token) :
    Except ExprError (Expr × List Token) :=
  match tokens with
  | ⟨.number value, _⟩ :: rest => .ok (.literal (.number value), rest)
  | ⟨.string value, _⟩ :: rest => .ok (.literal (.string value), rest)
  | ⟨.name text, _⟩ :: rest => .ok (nameExpr text, rest)
  | ⟨.mark "(", _⟩ :: rest => do
    let (value, rest) ← inner rest
    return (value, ← expectMark ")" rest)
  | ⟨.mark "[", _⟩ :: rest => do
    let (items, rest) ← parseItems inner "]" rest.length rest
    return (.array items, rest)
  | ⟨.mark "\x7b", _⟩ :: rest => do
    let (fields, rest) ← parseItems (parseField inner) "\x7d" rest.length rest
    return (.object fields, rest)
  | _ => .error (unexpected tokens)

mutual

/-- An expression that takes one from the budget. -/
def parseExpr (budget : Nat) (tokens : List Token) : Except ExprError (Expr × List Token) :=
  match budget with
  | 0 => .error (tooDeep tokens)
  | budget + 1 => parseConditional budget tokens
termination_by 12 * budget

/-- A conditional, or what stands in front of its question mark. -/
def parseConditional (budget : Nat) (tokens : List Token) :
    Except ExprError (Expr × List Token) := do
  let (test, tokens) ← parseLevel budget 0 tokens
  match skipMark? "?" tokens with
  | none => return (test, tokens)
  | some tokens =>
    let (consequent, tokens) ← parseExpr budget tokens
    let tokens ← expectMark ":" tokens
    let (alternate, tokens) ← parseExpr budget tokens
    return (.conditional test consequent alternate, tokens)
termination_by 12 * budget + 11
decreasing_by
  · simp [levelCount]
  all_goals omega

/-- A chain of operands with operators of a level between them. -/
def parseLevel (budget level : Nat) (tokens : List Token) : Except ExprError (Expr × List Token) :=
  if level < levelCount then do
    let (left, tokens) ← parseLevel budget (level + 1) tokens
    parseChain budget level left tokens
  else parseUnary budget tokens
termination_by 12 * budget + (levelCount - level + 3)

/-- The rest of a chain behind its left part. Every operator takes one from the budget for what
stands behind it. -/
def parseChain (budget level : Nat) (left : Expr) (tokens : List Token) :
    Except ExprError (Expr × List Token) :=
  match operatorAt? level tokens with
  | none => .ok (left, tokens)
  | some (operator, tokens) =>
    match budget with
    | 0 => .error (tooDeep tokens)
    | budget + 1 => do
      let (right, tokens) ← parseLevel budget (level + 1) tokens
      parseChain budget level (operator.join left right) tokens
termination_by 12 * budget
decreasing_by
  · simp only [levelCount]; omega
  · omega

/-- An operand with the operators in front of it. -/
def parseUnary (budget : Nat) (tokens : List Token) : Except ExprError (Expr × List Token) :=
  match unaryAt? tokens with
  | none => parseOperand budget tokens
  | some (op, tokens) =>
    match budget with
    | 0 => .error (tooDeep tokens)
    | budget + 1 => do
      let (operand, tokens) ← parseUnary budget tokens
      return (.unary op operand, tokens)
termination_by 12 * budget + 2

/-- An operand with its accesses and calls. -/
def parseOperand (budget : Nat) (tokens : List Token) : Except ExprError (Expr × List Token) := do
  let (target, tokens) ← parsePrimary (fun tokens => parseExpr budget tokens) tokens
  parseAccesses budget target tokens
termination_by 12 * budget + 1

/-- The accesses and calls behind an expression. Every one of them takes one from the budget. -/
def parseAccesses (budget : Nat) (target : Expr) (tokens : List Token) :
    Except ExprError (Expr × List Token) :=
  match accessAt? tokens with
  | none => .ok (target, tokens)
  | some (access, rest) =>
    match budget with
    | 0 => .error (tooDeep tokens)
    | budget + 1 => do
      let inner := fun tokens => parseExpr budget tokens
      let (target, tokens) ← parseAccess inner target access rest
      parseAccesses budget target tokens
termination_by 12 * budget

end

/-- The expression that a text is. -/
def parse (source : String) : Except ExprError Expr := do
  let (expr, rest) ← parseExpr depthLimit (← tokenize source)
  match rest with
  | ⟨.stop, _⟩ :: _ => return expr
  | _ => .error (unexpected rest)

end PromptMarkup.Expr
