/-
**Expressions.**

* `Expr`: literals, lists, objects, names, accesses, calls and operators;
* `Expr.freeNames`: the names that an expression reads, in source order;
* `Expr.height`: the number of expressions on the longest way down.
-/

namespace PromptMarkup

/-- A value written out in an expression. -/
inductive Literal where
  | null
  | bool (value : Bool)
  | number (value : Float)
  | string (value : String)

/-- The operators in front of an operand. -/
inductive UnaryOp where
  | not
  | negate
  | plus
  | typeOf
  deriving DecidableEq, Repr

/-- The operators that take the values of both operands. -/
inductive BinaryOp where
  | add
  | subtract
  | multiply
  | divide
  | remainder
  | equal
  | notEqual
  | strictEqual
  | strictNotEqual
  | less
  | greater
  | lessEqual
  | greaterEqual
  | contains
  deriving DecidableEq, Repr

/-- The operators that may leave their second operand alone. -/
inductive LogicalOp where
  | and
  | or
  | nullish
  deriving DecidableEq, Repr

/-- An expression. An access or a call that is optional gives null on null. -/
inductive Expr where
  | literal (value : Literal)
  | array (items : List Expr)
  | object (fields : List (String × Expr))
  | name (text : String)
  | member (target : Expr) (property : String) (optional : Bool)
  | index (target key : Expr) (optional : Bool)
  | call (callee : Expr) (args : List Expr) (optional : Bool)
  | unary (op : UnaryOp) (operand : Expr)
  | binary (op : BinaryOp) (left right : Expr)
  | logical (op : LogicalOp) (left right : Expr)
  | conditional (test consequent alternate : Expr)

namespace Expr

mutual

/-- The names that an expression reads, in source order and as often as they occur. -/
def freeNames : Expr → List String
  | literal _ => []
  | array items => freeNamesOfItems items
  | object fields => freeNamesOfFields fields
  | name text => [text]
  | member target _ _ => freeNames target
  | index target key _ => freeNames target ++ freeNames key
  | call callee args _ => freeNames callee ++ freeNamesOfItems args
  | unary _ operand => freeNames operand
  | binary _ left right => freeNames left ++ freeNames right
  | logical _ left right => freeNames left ++ freeNames right
  | conditional test consequent alternate =>
    freeNames test ++ freeNames consequent ++ freeNames alternate

/-- The names that some expressions read. -/
def freeNamesOfItems : List Expr → List String
  | [] => []
  | item :: rest => freeNames item ++ freeNamesOfItems rest

/-- The names that some fields read. -/
def freeNamesOfFields : List (String × Expr) → List String
  | [] => []
  | (_, value) :: rest => freeNames value ++ freeNamesOfFields rest

end

mutual

/-- The number of expressions on the longest way down. -/
def height : Expr → Nat
  | literal _ => 1
  | array items => heightOfItems items + 1
  | object fields => heightOfFields fields + 1
  | name _ => 1
  | member target _ _ => height target + 1
  | index target key _ => max (height target) (height key) + 1
  | call callee args _ => max (height callee) (heightOfItems args) + 1
  | unary _ operand => height operand + 1
  | binary _ left right => max (height left) (height right) + 1
  | logical _ left right => max (height left) (height right) + 1
  | conditional test consequent alternate =>
    max (height test) (max (height consequent) (height alternate)) + 1

/-- The greatest height of some expressions. -/
def heightOfItems : List Expr → Nat
  | [] => 0
  | item :: rest => max (height item) (heightOfItems rest)

/-- The greatest height of some fields. -/
def heightOfFields : List (String × Expr) → Nat
  | [] => 0
  | (_, value) :: rest => max (height value) (heightOfFields rest)

end

end Expr

end PromptMarkup
