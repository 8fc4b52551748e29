/-
**How high an expression gets.**

The budget of the parser is taken from what stands behind an operator or inside of brackets. What
stands in front of an operator has been parsed by then with all of the budget, and every link of a
chain puts one more expression on top of it. On each of the levels of operators a chain is as long
as the budget.

* `tallest`: the greatest height of an expression with a budget;
* `tallest_eq`: it is quadratic in the budget;
* `height_le_tallest`: no expression with a budget is higher.
-/

import Mathlib.Order.Monotone.Basic
import Mathlib.Tactic.Ring
import PromptMarkup.Proofs.Expr.Outcome

namespace PromptMarkup.Expr

/-! ### Heights -/

theorem height_pos (expr : Expr) : 0 < expr.height := by
  cases expr <;> exact Nat.succ_pos _

theorem heightOfItems_le {items : List Expr} {bound : Nat}
    (below : ∀ item ∈ items, item.height ≤ bound) : heightOfItems items ≤ bound := by
  induction items with
  | nil => exact Nat.zero_le bound
  | cons first rest ih =>
    obtain ⟨here, later⟩ := List.forall_mem_cons.mp below
    exact Nat.max_le.mpr ⟨here, ih later⟩

theorem heightOfFields_le {fields : List (String × Expr)} {bound : Nat}
    (below : ∀ field ∈ fields, field.2.height ≤ bound) : heightOfFields fields ≤ bound := by
  induction fields with
  | nil => exact Nat.zero_le bound
  | cons first rest ih =>
    obtain ⟨here, later⟩ := List.forall_mem_cons.mp below
    exact Nat.max_le.mpr ⟨here, ih later⟩

theorem height_join (operator : Operator) (left right : Expr) :
    (operator.join left right).height = max left.height right.height + 1 := by
  cases operator <;> rfl

theorem height_nameExpr (text : String) : (nameExpr text).height = 1 := by
  unfold nameExpr
  split <;> rfl

/-! ### Budgets -/

/-- The greatest height of an expression with a budget. One more puts a pair of brackets, a chain of
accesses, a chain on each level and a conditional on top of it. -/
def tallest : Nat → Nat
  | 0 => 0
  | budget + 1 => tallest budget + (levelCount + 1) * budget + 2

/-- The greatest height of an operand with a budget and without operators. In an object a name is on
top of another one without taking from the budget. -/
def tallestPrimary (budget : Nat) : Nat := max 2 (tallest budget + 1)

/-- The greatest height of a chain on a level; behind the last level only accesses and operators in
front of an operand are left. -/
def tallestChain (budget level : Nat) : Nat :=
  tallestPrimary budget + (levelCount + 1 - level) * budget

/-- The greatest height is quadratic in the budget. -/
theorem tallest_eq (budget : Nat) : tallest budget = 2 * budget * (2 * budget - 1) := by
  induction budget with
  | zero => rfl
  | succ budget ih =>
    unfold tallest levelCount
    rw [ih]
    cases budget with
    | zero => rfl
    | succ budget =>
      have first : 2 * (budget + 1) - 1 = 2 * budget + 1 := by omega
      have second : 2 * (budget + 1 + 1) - 1 = 2 * budget + 3 := by omega
      rw [first, second]
      ring

theorem tallest_mono : Monotone tallest := by
  refine monotone_nat_of_le_succ fun budget => ?_
  rw [tallest]
  omega

theorem tallestPrimary_mono {less more : Nat} (le : less ≤ more) :
    tallestPrimary less ≤ tallestPrimary more := by
  have := tallest_mono le
  unfold tallestPrimary
  omega

theorem tallestChain_mono {less more : Nat} (le : less ≤ more) (level : Nat) :
    tallestChain less level ≤ tallestChain more level := by
  unfold tallestChain
  exact Nat.add_le_add (tallestPrimary_mono le) (Nat.mul_le_mul_left _ le)

/-- A chain on a level may be as long as the budget. -/
theorem tallestChain_level {budget level : Nat} (inside : level < levelCount) :
    tallestChain budget level = tallestChain budget (level + 1) + budget := by
  unfold tallestChain
  have step : levelCount + 1 - level = levelCount + 1 - (level + 1) + 1 := by omega
  rw [step, Nat.add_mul, Nat.one_mul, Nat.add_assoc]

/-! ### Operands -/

/-- Every expression that there is in an outcome is at most as high as a bound. -/
def Below {α : Type} (bound : Nat) (outcome : Except ExprError (Expr × α)) : Prop :=
  Yields (fun value => value.1.height ≤ bound) outcome

theorem Below.mono {α : Type} {bound more : Nat} {outcome : Except ExprError (Expr × α)}
    (below : Below bound outcome) (le : bound ≤ more) : Below more outcome :=
  Yields.mono below fun _ here => Nat.le_trans here le

/-- An outcome behind one that is at most as high as a bound. -/
theorem Below.bind {α β : Type} {bound : Nat} {outcome : Except ExprError (Expr × α)}
    {after : β → Prop} {next : Expr × α → Except ExprError β} (below : Below bound outcome)
    (step : ∀ expr rest, expr.height ≤ bound → Yields after (next (expr, rest))) :
    Yields after (outcome >>= next) :=
  Yields.bind below fun value here => step value.1 value.2 here

section Operands

variable {inner : Reader Expr} {bound : Nat} (each : ∀ tokens, Below bound (inner tokens))
include each

theorem below_parsePrimary (tokens : List Token) :
    Below (max 2 (bound + 1)) (parsePrimary inner tokens) := by
  unfold parsePrimary
  split
  · exact .ok (Nat.le_trans (Nat.le_succ 1) (Nat.le_max_left _ _))
  · exact .ok (Nat.le_trans (Nat.le_succ 1) (Nat.le_max_left _ _))
  · refine .ok ?_
    rw [height_nameExpr]
    exact Nat.le_trans (Nat.le_succ 1) (Nat.le_max_left _ _)
  · refine (each _).bind fun value rest here => ?_
    refine Yields.bind_any fun rest => .ok ?_
    exact Nat.le_trans (Nat.le_succ_of_le here) (Nat.le_max_right _ _)
  · refine (parseItems_yields (fun item : Expr => item.height ≤ bound) each _ _ _).bind
      fun items here => .ok ?_
    have := heightOfItems_le here
    show heightOfItems items.1 + 1 ≤ _
    omega
  · have names : ∀ text, (Expr.name text).height ≤ max 1 bound := fun _ => Nat.le_max_left _ _
    have values := fun tokens => (each tokens).mono (Nat.le_max_right 1 bound)
    have field := parseField_yields (fun inner => inner.height ≤ max 1 bound) values names
    refine (parseItems_yields (fun inner : String × Expr => inner.2.height ≤ max 1 bound)
      field _ _ _).bind fun fields here => .ok ?_
    have := heightOfFields_le here
    show heightOfFields fields.1 + 1 ≤ _
    omega
  · exact .error _

theorem below_parseAccess (target : Expr) (access : AccessMark) (tokens : List Token) :
    Below (max target.height bound + 1) (parseAccess inner target access tokens) := by
  have member : ∀ optional tokens, Below (max target.height bound + 1) (expectName tokens >>=
      fun found => .ok (Expr.member target found.1 optional, found.2)) := by
    intro optional tokens
    refine Yields.bind_any fun property => .ok ?_
    exact Nat.succ_le_succ (Nat.le_max_left _ _)
  have index : ∀ optional tokens, Below (max target.height bound + 1) (inner tokens >>= fun found =>
      expectMark "]" found.2 >>= fun rest => .ok (Expr.index target found.1 optional, rest)) := by
    intro optional tokens
    refine (each tokens).bind fun key rest here => ?_
    refine Yields.bind_any fun rest => .ok ?_
    exact Nat.succ_le_succ (max_le_max_left _ here)
  have call : ∀ optional tokens, Below (max target.height bound + 1)
      (parseItems inner ")" tokens.length tokens >>= fun found =>
        .ok (Expr.call target found.1 optional, found.2)) := by
    intro optional tokens
    refine (parseItems_yields (fun item : Expr => item.height ≤ bound) each _ _ _).bind
      fun args here => .ok ?_
    exact Nat.succ_le_succ (max_le_max_left _ (heightOfItems_le here))
  unfold parseAccess
  cases access with
  | member => exact member false tokens
  | index => exact index false tokens
  | call => exact call false tokens
  | optional =>
    simp only
    split
    · exact call true _
    · exact index true _
    · exact member true _

end Operands

/-! ### Chains -/

/-- Accesses put at most as many expressions on top of each other as the budget allows. -/
theorem below_parseAccesses {budget : Nat}
    (each : ∀ less < budget, ∀ tokens, Below (tallest less) (parseExpr less tokens))
    (target : Expr) (tokens : List Token) :
    Below (max target.height (tallest budget) + budget) (parseAccesses budget target tokens) := by
  induction budget generalizing target tokens with
  | zero =>
    unfold parseAccesses
    split
    · exact .ok (Nat.le_max_left _ _)
    · exact .error _
  | succ budget ih =>
    have mono : tallest budget ≤ tallest (budget + 1) := tallest_mono (Nat.le_succ budget)
    unfold parseAccesses
    split
    · exact .ok (Nat.le_trans (Nat.le_max_left _ _) (Nat.le_add_right _ _))
    · refine (below_parseAccess (each budget (Nat.lt_succ_self budget)) target _ _).bind
        fun value rest here => ?_
      refine Below.mono (ih (fun less lt => each less (Nat.lt_succ_of_lt lt)) value rest) ?_
      omega

theorem below_parseOperand {budget : Nat}
    (each : ∀ less ≤ budget, ∀ tokens, Below (tallest less) (parseExpr less tokens))
    (tokens : List Token) :
    Below (tallestPrimary budget + budget) (parseOperand budget tokens) := by
  unfold parseOperand
  refine (below_parsePrimary (each budget (Nat.le_refl budget)) tokens).bind
    fun value rest here => ?_
  refine Below.mono (below_parseAccesses (fun less lt => each less lt.le) value rest) ?_
  unfold tallestPrimary
  omega

theorem below_parseUnary {budget : Nat}
    (each : ∀ less ≤ budget, ∀ tokens, Below (tallest less) (parseExpr less tokens))
    (tokens : List Token) :
    Below (tallestPrimary budget + budget) (parseUnary budget tokens) := by
  induction budget generalizing tokens with
  | zero =>
    unfold parseUnary
    split
    · exact below_parseOperand each tokens
    · exact .error _
  | succ budget ih =>
    have mono : tallestPrimary budget ≤ tallestPrimary (budget + 1) :=
      tallestPrimary_mono (Nat.le_succ budget)
    unfold parseUnary
    split
    · exact below_parseOperand each tokens
    · refine (ih (fun less le => each less (Nat.le_succ_of_le le)) _).bind fun value rest here =>
        .ok ?_
      show value.height + 1 ≤ _
      omega

/-- Every operator of a level puts one expression on top of what stands in front of it. -/
theorem below_parseChain {budget level : Nat}
    (operand : ∀ less < budget, ∀ tokens,
      Below (tallestChain less (level + 1)) (parseLevel less (level + 1) tokens))
    (left : Expr) (tokens : List Token) :
    Below (max left.height (tallestChain budget (level + 1)) + budget)
      (parseChain budget level left tokens) := by
  induction budget generalizing left tokens with
  | zero =>
    unfold parseChain
    split
    · exact .ok (Nat.le_max_left _ _)
    · exact .error _
  | succ budget ih =>
    have mono : tallestChain budget (level + 1) ≤ tallestChain (budget + 1) (level + 1) :=
      tallestChain_mono (Nat.le_succ budget) (level + 1)
    unfold parseChain
    split
    · exact .ok (Nat.le_trans (Nat.le_max_left _ _) (Nat.le_add_right _ _))
    next operator rest found =>
      refine (operand budget (Nat.lt_succ_self budget) rest).bind fun value after here => ?_
      refine Below.mono (ih (fun less lt => operand less (Nat.lt_succ_of_lt lt))
        (operator.join left value) after) ?_
      rw [height_join]
      omega

/-- **A chain is as high as its level allows.** -/
theorem below_parseLevel {budget level : Nat}
    (each : ∀ less ≤ budget, ∀ tokens, Below (tallest less) (parseExpr less tokens))
    (inside : level ≤ levelCount) (tokens : List Token) :
    Below (tallestChain budget level) (parseLevel budget level tokens) := by
  -- The levels are counted down from the last one, for all smaller budgets at once.
  induction inside using Nat.decreasingInduction generalizing budget tokens with
  | self =>
    unfold parseLevel
    rw [if_neg (Nat.lt_irrefl levelCount)]
    refine Below.mono (below_parseUnary each tokens) ?_
    unfold tallestChain levelCount
    omega
  | of_succ level lt ih =>
    unfold parseLevel
    rw [if_pos lt, tallestChain_level lt]
    refine (ih each tokens).bind fun value rest here => ?_
    refine Below.mono (below_parseChain (fun less smaller => ih fun other le =>
      each other (Nat.le_trans le smaller.le)) value rest) ?_
    omega

/-! ### Expressions -/

theorem below_parseConditional {budget : Nat}
    (each : ∀ less ≤ budget, ∀ tokens, Below (tallest less) (parseExpr less tokens))
    (tokens : List Token) : Below (tallest (budget + 1)) (parseConditional budget tokens) := by
  have chain := below_parseLevel each (Nat.zero_le levelCount)
  have whole : tallestChain budget 0 = tallestPrimary budget + (levelCount + 1) * budget := rfl
  unfold parseConditional
  refine (chain tokens).bind fun test rest testBelow => ?_
  simp only
  rw [tallest]
  split
  · refine .ok (Nat.le_trans testBelow ?_)
    rw [whole, tallestPrimary]
    omega
  · cases budget with
    | zero =>
      -- Without a budget there is no expression behind the question mark.
      rw [parseExpr]
      exact .error _
    | succ budget =>
      refine (each _ (Nat.le_refl _) _).bind fun consequent _ consequentBelow => ?_
      refine Yields.bind_any fun _ => ?_
      refine (each _ (Nat.le_refl _) _).bind fun alternate _ alternateBelow => .ok ?_
      show max test.height (max consequent.height alternate.height) + 1 ≤ _
      have positive : 2 ≤ tallest (budget + 1) := by
        rw [tallest]
        omega
      rw [whole, tallestPrimary] at testBelow
      omega

/-- **No expression with a budget is higher than the greatest height of that budget.** -/
theorem below_parseExpr (budget : Nat) (tokens : List Token) :
    Below (tallest budget) (parseExpr budget tokens) := by
  induction budget using Nat.strong_induction_on generalizing tokens with
  | h budget ih =>
    unfold parseExpr
    cases budget with
    | zero => exact .error _
    | succ budget =>
      exact below_parseConditional (fun less le => ih less (Nat.lt_succ_of_le le)) tokens

theorem height_le_tallest {source : String} {expr : Expr} (parsed : parse source = .ok expr) :
    expr.height ≤ tallest depthLimit := by
  have below : Yields (fun found => found.height ≤ tallest depthLimit) (parse source) := by
    unfold parse
    refine Yields.bind_any fun tokens => ?_
    refine (below_parseExpr depthLimit tokens).bind fun value rest here => ?_
    simp only
    split
    · exact .ok here
    · exact .error _
  exact below expr parsed

end PromptMarkup.Expr
