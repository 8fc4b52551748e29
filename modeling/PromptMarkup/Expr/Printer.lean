/-
**From expressions to texts.**

An expression is written with parentheses only where the levels of precedence ask for them, and with
a space between any two tokens.

* `Expr.rank`: how closely an expression holds together;
* `Expr.kinds`: the tokens that an expression is written with;
* `TokenKind.word`, `spaced`: the text of a token, and of tokens with spaces between them;
* `Expr.print`: the text of an expression;
* `Expr.isPrintable`: the expressions that are what their text says.
-/

import PromptMarkup.Expr.Parser

namespace PromptMarkup.Expr

/-! ## Operators -/

/-- The token of an operator between two operands. -/
def Operator.kind : Operator → TokenKind
  | binary .add => .mark "+"
  | binary .subtract => .mark "-"
  | binary .multiply => .mark "*"
  | binary .divide => .mark "/"
  | binary .remainder => .mark "%"
  | binary .equal => .mark "=="
  | binary .notEqual => .mark "!="
  | binary .strictEqual => .mark "==="
  | binary .strictNotEqual => .mark "!=="
  | binary .less => .mark "<"
  | binary .greater => .mark ">"
  | binary .lessEqual => .mark "<="
  | binary .greaterEqual => .mark ">="
  | binary .contains => .name "in"
  | logical .nullish => .mark "??"
  | logical .or => .mark "||"
  | logical .and => .mark "&&"

/-- The level of an operator between two operands. -/
def Operator.level : Operator → Nat
  | logical .nullish => 0
  | logical .or => 1
  | logical .and => 2
  | binary .equal | binary .notEqual | binary .strictEqual | binary .strictNotEqual => 3
  | binary .less | binary .greater | binary .lessEqual | binary .greaterEqual | binary .contains => 4
  | binary .add | binary .subtract => 5
  | binary .multiply | binary .divide | binary .remainder => 6

end PromptMarkup.Expr

namespace PromptMarkup

/-- The token of an operator in front of an operand. -/
def UnaryOp.kind : UnaryOp → Expr.TokenKind
  | not => .mark "!"
  | negate => .mark "-"
  | plus => .mark "+"
  | typeOf => .name "typeof"

/-- The token of a literal. -/
def Literal.kind : Literal → Expr.TokenKind
  | null => .name "null"
  | bool true => .name "true"
  | bool false => .name "false"
  | number value => .number value
  | string value => .string value

namespace Expr

/-! ## Ranks -/

/-- The rank of an operator in front of an operand, behind those of all levels. -/
def unaryRank : Nat := levelCount + 1

/-- The rank of an operand with its accesses. -/
def operandRank : Nat := levelCount + 2

/-- How closely an expression holds together. A conditional does least, and an operator of a level
does more than those of earlier ones. -/
def rank : Expr → Nat
  | conditional _ _ _ => 0
  | logical op _ _ => (Operator.logical op).level + 1
  | binary op _ _ => (Operator.binary op).level + 1
  | unary _ _ => unaryRank
  | _ => operandRank

/-! ## Tokens -/

/-- The tokens of an expression of a rank where one of at least another rank has to stand. -/
def wrap (least rank : Nat) (kinds : List TokenKind) : List TokenKind :=
  if rank < least then .mark "(" :: kinds ++ [.mark ")"] else kinds

/-- The tokens of an operator between operands of some ranks. The operand in front of it may have
the same level. -/
def joined (operator : Operator) (leftRank : Nat) (left : List TokenKind) (rightRank : Nat)
    (right : List TokenKind) : List TokenKind :=
  wrap (operator.level + 1) leftRank left ++
    operator.kind :: wrap (operator.level + 2) rightRank right

/-- Pieces with commas between them, and a mark on either side. -/
def listed (opening : String) (pieces : List (List TokenKind)) (closing : String) :
    List TokenKind :=
  .mark opening :: [.mark ","].intercalate pieces ++ [.mark closing]

/-- A text that is a name. -/
def isName (text : String) : Bool :=
  match text.toList with
  | [] => false
  | first :: rest => isNameStart first && rest.all isNameContinue

/-- The token of the name of a field, which need not be a name. -/
def keyKind (key : String) : TokenKind := if isName key then .name key else .string key

/-- The mark of an optional access, in front of one that is not a member. -/
def optionalMark (optional : Bool) : List TokenKind := if optional then [.mark "?."] else []

mutual

/-- The tokens that an expression is written with. -/
def kinds : Expr → List TokenKind
  | literal value => [value.kind]
  | array items => listed "[" (kindsOfItems items) "]"
  | object fields => listed "\x7b" (kindsOfFields fields) "\x7d"
  | name text => [.name text]
  | member target property optional =>
    wrap operandRank target.rank (kinds target) ++
      [.mark (if optional then "?." else "."), .name property]
  | index target key optional =>
    wrap operandRank target.rank (kinds target) ++ optionalMark optional ++
      .mark "[" :: kinds key ++ [.mark "]"]
  | call callee args optional =>
    wrap operandRank callee.rank (kinds callee) ++ optionalMark optional ++
      listed "(" (kindsOfItems args) ")"
  | unary op operand => op.kind :: wrap unaryRank operand.rank (kinds operand)
  | binary op left right => joined (.binary op) left.rank (kinds left) right.rank (kinds right)
  | logical op left right => joined (.logical op) left.rank (kinds left) right.rank (kinds right)
  | conditional test consequent alternate =>
    wrap 1 test.rank (kinds test) ++
      .mark "?" :: kinds consequent ++ .mark ":" :: kinds alternate

/-- The tokens of each of some expressions. -/
def kindsOfItems : List Expr → List (List TokenKind)
  | [] => []
  | item :: rest => kinds item :: kindsOfItems rest

/-- The tokens of each of some fields. -/
def kindsOfFields : List (String × Expr) → List (List TokenKind)
  | [] => []
  | (key, value) :: rest => (keyKind key :: .mark ":" :: kinds value) :: kindsOfFields rest

end

/-! ## Texts -/

/-- The characters that stand for one in a string. -/
def escape : Char → List Char
  | '"' => ['\\', '"']
  | '\\' => ['\\', '\\']
  | '\n' => ['\\', 'n']
  | '\t' => ['\\', 't']
  | '\r' => ['\\', 'r']
  | '\x00' => ['\\', '0']
  | char => [char]

/-- The text of a token. -/
def TokenKind.word : TokenKind → List Char
  | mark text => text.toList
  | name text => text.toList
  | string text => '"' :: text.toList.flatMap escape ++ ['"']
  | number value => (Number.numberText value).toList
  | stop => []

/-- The text of tokens with a space between any two. -/
def spaced (kinds : List TokenKind) : List Char := [' '].intercalate (kinds.map TokenKind.word)

/-- The text of an expression. -/
def print (expr : Expr) : String := String.ofList (spaced expr.kinds)

/-! ## Expressions with a text -/

/-- The words that stand for something else where an operand begins. The word `in` does not: it is
an operator only behind an operand. -/
def reservedWords : List String := ["true", "false", "null", "undefined", "typeof"]

mutual

/-- Names and properties are written as names, no name is a reserved word, and there are no
numbers. -/
def isPrintable : Expr → Bool
  | literal (.number _) => false
  | literal _ => true
  | array items => arePrintableItems items
  | object fields => arePrintableFields fields
  | name text => isName text && !reservedWords.contains text
  | member target property _ => isPrintable target && isName property
  | index target key _ => isPrintable target && isPrintable key
  | call callee args _ => isPrintable callee && arePrintableItems args
  | unary _ operand => isPrintable operand
  | binary _ left right => isPrintable left && isPrintable right
  | logical _ left right => isPrintable left && isPrintable right
  | conditional test consequent alternate =>
    isPrintable test && isPrintable consequent && isPrintable alternate

/-- Each of some expressions has a text. -/
def arePrintableItems : List Expr → Bool
  | [] => true
  | item :: rest => isPrintable item && arePrintableItems rest

/-- The value of each of some fields has a text; their names may be any strings. -/
def arePrintableFields : List (String × Expr) → Bool
  | [] => true
  | (_, value) :: rest => isPrintable value && arePrintableFields rest

end

end Expr

end PromptMarkup
