/-
**What an expression reads.**

An expression reads the values of its free names and of no others. So it has the same outcome in all
environments with the same functions that agree on those.

* `Environment.AgreeOn`: two environments with the same functions and the same values of some names;
* `lookup_congr`, `evaluateItems_congr`, `evaluateEntries_congr`, `evaluateCall_congr`: names, lists,
  fields and calls, by way of the expressions in them;
* `evaluateChain_congr`: the value of an expression, or that its chain is cut short;
* `evaluate_reads_freeNames`: the outcome of an expression.
-/

import PromptMarkup.Expr.Evaluate

namespace PromptMarkup

/-- Two environments offer the same functions, and some names have the same values in both. -/
structure Environment.AgreeOn (names : List String) (first second : Environment) : Prop where
  functions : first.functions = second.functions
  values : ∀ name ∈ names, first.resolve name = second.resolve name

namespace Environment.AgreeOn

variable {names others : List String} {first second : Environment}

theorem left (agree : AgreeOn (names ++ others) first second) : AgreeOn names first second :=
  ⟨agree.functions, fun name member => agree.values name (List.mem_append_left others member)⟩

theorem right (agree : AgreeOn (names ++ others) first second) : AgreeOn others first second :=
  ⟨agree.functions, fun name member => agree.values name (List.mem_append_right names member)⟩

theorem resolve {name : String} (agree : AgreeOn [name] first second) :
    first.resolve name = second.resolve name := agree.values name (List.mem_singleton_self name)

end Environment.AgreeOn

namespace Expr

open Environment (AgreeOn)

variable {first second : Environment}

/-! ### Names -/

theorem lookup_congr {name : String} (agree : AgreeOn [name] first second) :
    lookup first name = lookup second name := by
  unfold lookup
  rw [agree.resolve, agree.functions]

/-- The function of a name is found in the table alone. -/
theorem functionOf_congr {names : List String} (agree : AgreeOn names first second)
    (name : String) : functionOf first name = functionOf second name := by
  unfold functionOf
  rw [agree.functions]

/-! ### Calls -/

/-- What is called is a method of a value or a name, or else it is evaluated like any expression. -/
theorem evaluateChain_call {callee : Expr} (environment : Environment) (args : List Expr)
    (optional : Bool)
    (noMethod : ∀ target property memberOptional, callee ≠ .member target property memberOptional)
    (noName : ∀ text, callee ≠ .name text) :
    evaluateChain environment (.call callee args optional) = (do
      match accessed optional (← evaluateChain environment callee) with
      | none => return none
      | some _ => .error (.notCallable (callName callee))) := by
  cases callee with
  | member target property memberOptional =>
    exact absurd rfl (noMethod target property memberOptional)
  | name text => exact absurd rfl (noName text)
  | _ => exact evaluateChain.eq_def environment _

theorem evaluateCall_congr {callee : Expr} {args : List Expr} (optional : Bool)
    (agree : AgreeOn callee.freeNames first second)
    (calleeSame : evaluateChain first callee = evaluateChain second callee)
    (targetSame : ∀ target property memberOptional, callee = .member target property memberOptional →
      evaluateChain first target = evaluateChain second target)
    (argsSame : evaluateItems first args = evaluateItems second args) :
    evaluateChain first (.call callee args optional) =
      evaluateChain second (.call callee args optional) := by
  by_cases method : ∃ target property memberOptional, callee = .member target property memberOptional
  · obtain ⟨target, property, memberOptional, rfl⟩ := method
    rw [evaluateChain, evaluateChain, targetSame target property memberOptional rfl, argsSame]
  by_cases name : ∃ text, callee = .name text
  · obtain ⟨text, rfl⟩ := name
    rw [evaluateChain, evaluateChain, agree.resolve, functionOf_congr agree, argsSame]
  · have noMethod := fun target property memberOptional same =>
      method ⟨target, property, memberOptional, same⟩
    have noName := fun text same => name ⟨text, same⟩
    rw [evaluateChain_call first args optional noMethod noName,
      evaluateChain_call second args optional noMethod noName, calleeSame]

/-! ### Expressions -/

mutual

/-- **The value of an expression depends on its free names**, and so does whether its chain of
accesses is cut short. -/
theorem evaluateChain_congr (expr : Expr) (agree : AgreeOn expr.freeNames first second) :
    evaluateChain first expr = evaluateChain second expr := by
  match expr with
  | .literal value => rw [evaluateChain, evaluateChain]
  | .array items => rw [evaluateChain, evaluateChain, evaluateItems_congr items agree]
  | .object fields => rw [evaluateChain, evaluateChain, evaluateEntries_congr fields agree]
  | .name text => rw [evaluateChain, evaluateChain, lookup_congr agree]
  | .member target _ _ => rw [evaluateChain, evaluateChain, evaluateChain_congr target agree]
  | .index target key _ =>
    rw [evaluateChain, evaluateChain, evaluateChain_congr target agree.left,
      evaluateChain_congr key agree.right]
  | .call callee args optional =>
    -- A method is called on a part of the callee, which the names of the callee are those of.
    refine evaluateCall_congr optional agree.left (evaluateChain_congr callee agree.left) ?_
      (evaluateItems_congr args agree.right)
    rintro target property memberOptional rfl
    exact evaluateChain_congr target agree.left
  | .unary _ operand => rw [evaluateChain, evaluateChain, evaluateChain_congr operand agree]
  | .binary _ left right =>
    rw [evaluateChain, evaluateChain, evaluateChain_congr left agree.left,
      evaluateChain_congr right agree.right]
  | .logical _ left right =>
    rw [evaluateChain, evaluateChain, evaluateChain_congr left agree.left,
      evaluateChain_congr right agree.right]
  | .conditional test consequent alternate =>
    rw [evaluateChain, evaluateChain, evaluateChain_congr test agree.left.left,
      evaluateChain_congr consequent agree.left.right, evaluateChain_congr alternate agree.right]

theorem evaluateItems_congr (items : List Expr)
    (agree : AgreeOn (freeNamesOfItems items) first second) :
    evaluateItems first items = evaluateItems second items := by
  match items with
  | [] => rw [evaluateItems, evaluateItems]
  | item :: rest =>
    rw [evaluateItems, evaluateItems, evaluateChain_congr item agree.left,
      evaluateItems_congr rest agree.right]

theorem evaluateEntries_congr (fields : List (String × Expr))
    (agree : AgreeOn (freeNamesOfFields fields) first second) :
    evaluateEntries first fields = evaluateEntries second fields := by
  match fields with
  | [] => rw [evaluateEntries, evaluateEntries]
  | (_, value) :: rest =>
    rw [evaluateEntries, evaluateEntries, evaluateChain_congr value agree.left,
      evaluateEntries_congr rest agree.right]

end

/-- **An expression reads nothing but its free names.** With any functions, it has the same outcome,
a value or an error, under any two ways to resolve names that give the same answer for each of its
free names. -/
theorem evaluate_reads_freeNames (expr : Expr) (functions : FunctionTable)
    (first second : String → Option Value)
    (agree : ∀ name ∈ expr.freeNames, first name = second name) :
    expr.evaluate ⟨functions, first⟩ = expr.evaluate ⟨functions, second⟩ := by
  have same : evaluateChain ⟨functions, first⟩ expr = evaluateChain ⟨functions, second⟩ expr :=
    evaluateChain_congr expr ⟨rfl, agree⟩
  unfold evaluate
  rw [same]

/-- A name that is called by itself is looked up before the functions are, and `b` is not read. -/
theorem evaluate_reads_freeNames_call :
    (∀ name ∈ (Expr.call (.name "f") [.name "a"] false).freeNames,
      (fun name => if name = "b" then some Value.null else none) name =
        (fun _ => none : String → Option Value) name) ∧
    evaluate ⟨.standard, fun name => if name = "b" then some .null else none⟩
        (.call (.name "f") [.name "a"] false) =
      evaluate ⟨.standard, fun _ => none⟩ (.call (.name "f") [.name "a"] false) := by
  have agree : ∀ name ∈ (Expr.call (.name "f") [.name "a"] false).freeNames,
      (fun name => if name = "b" then some Value.null else none) name =
        (fun _ => none : String → Option Value) name := by
    intro name member
    simp only [freeNames, freeNamesOfItems, List.mem_append, List.mem_cons, List.not_mem_nil,
      or_false] at member
    rcases member with rfl | rfl <;> rfl
  exact ⟨agree, evaluate_reads_freeNames _ .standard _ _ agree⟩

end Expr

end PromptMarkup
