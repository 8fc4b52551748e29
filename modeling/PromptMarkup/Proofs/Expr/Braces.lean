/-
**Braces in an expression match.**

An expression takes tokens off the front of others. Among those that it takes every closing brace
matches an opening one in front of it, since braces stand around the fields of an object only.

* `Balanced`: kinds of tokens in which the braces match;
* `Consumes`: balanced tokens in front of others;
* `Takes`: whatever an outcome of a parser yields is preceded by balanced tokens;
* `takes_parseExpr`: an expression takes balanced tokens;
* `balanced_of_parse`: the tokens of a text that is an expression are balanced.
-/

import Mathlib.Order.Monotone.Basic
import PromptMarkup.Proofs.Expr.Outcome

namespace PromptMarkup.Expr

/-! ### Balanced tokens -/

/-- A token that is a brace. -/
def TokenKind.isBrace : TokenKind → Bool
  | mark text => text = "\x7b" || text = "\x7d"
  | _ => false

/-- Kinds of tokens in which the braces match. -/
inductive Balanced : List TokenKind → Prop
  | nil : Balanced []
  | single (kind : TokenKind) : kind.isBrace = false → Balanced [kind]
  | append (first second : List TokenKind) :
      Balanced first → Balanced second → Balanced (first ++ second)
  | braces (inner : List TokenKind) :
      Balanced inner → Balanced (.mark "\x7b" :: (inner ++ [.mark "\x7d"]))

/-- Balanced tokens in front of others. -/
def Consumes (tokens rest : List Token) : Prop :=
  ∃ front, tokens = front ++ rest ∧ Balanced (front.map Token.kind)

namespace Consumes

variable {tokens middle rest : List Token}

theorem refl (tokens : List Token) : Consumes tokens tokens := ⟨[], rfl, .nil⟩

theorem trans (first : Consumes tokens middle) (second : Consumes middle rest) :
    Consumes tokens rest := by
  obtain ⟨front, rfl, left⟩ := first
  obtain ⟨back, rfl, right⟩ := second
  refine ⟨front ++ back, (List.append_assoc _ _ _).symm, ?_⟩
  rw [List.map_append]
  exact .append _ _ left right

/-- A token that is no brace. -/
theorem one {token : Token} (plain : token.kind.isBrace = false) :
    Consumes (token :: rest) rest := ⟨[token], rfl, .single _ plain⟩

theorem mark {mark : String} {span : Span} (plain : (TokenKind.mark mark).isBrace = false) :
    Consumes (⟨.mark mark, span⟩ :: rest) rest := one plain

/-- Braces around balanced tokens. -/
theorem braces {opening closing : Span}
    (inner : Consumes tokens (⟨.mark "\x7d", closing⟩ :: rest)) :
    Consumes (⟨.mark "\x7b", opening⟩ :: tokens) rest := by
  obtain ⟨front, rfl, balanced⟩ := inner
  refine ⟨⟨.mark "\x7b", opening⟩ :: (front ++ [⟨.mark "\x7d", closing⟩]), by simp, ?_⟩
  rw [List.map_cons, List.map_append]
  exact .braces _ balanced

end Consumes

/-! ### Outcomes -/

/-- Whatever an outcome yields is preceded by balanced tokens. -/
def Takes {α : Type} (tokens : List Token) (outcome : Except ExprError (α × List Token)) : Prop :=
  Yields (fun value => Consumes tokens value.2) outcome

namespace Takes

variable {α β : Type} {tokens middle : List Token} {outcome : Except ExprError (α × List Token)}

/-- Balanced tokens in front of what an outcome takes. -/
theorem after (front : Consumes tokens middle) (takes : Takes middle outcome) :
    Takes tokens outcome := Yields.mono takes fun _ here => front.trans here

/-- Outcomes one after the other. -/
theorem bind {next : α × List Token → Except ExprError (β × List Token)}
    (takes : Takes tokens outcome) (step : ∀ value rest, Takes rest (next (value, rest))) :
    Takes tokens (outcome >>= next) :=
  Yields.bind takes fun value here => (step value.1 value.2).after here

end Takes

/-! ### Marks -/

theorem skipMark?_eq {mark : String} {tokens rest : List Token}
    (found : skipMark? mark tokens = some rest) :
    ∃ span, tokens = ⟨.mark mark, span⟩ :: rest := by
  unfold skipMark? at found
  split at found
  next text span tail =>
    split at found
    next same =>
      cases found
      exact ⟨span, by rw [same]⟩
    next => cases found
  next => cases found

section Marks

variable {mark : String} (plain : (TokenKind.mark mark).isBrace = false)
include plain

theorem consumes_skipMark? {tokens rest : List Token}
    (found : skipMark? mark tokens = some rest) : Consumes tokens rest := by
  obtain ⟨span, rfl⟩ := skipMark?_eq found
  exact .mark plain

theorem yields_expectMark (tokens : List Token) :
    Yields (fun rest => Consumes tokens rest) (expectMark mark tokens) := by
  unfold expectMark
  split
  next rest found => exact .ok (consumes_skipMark? plain found)
  next => exact .error _

/-- A mark that has to come next, behind which a value is returned. -/
theorem takes_expectMark {α : Type} (value : α) (tokens : List Token) :
    Takes tokens (do return (value, ← expectMark mark tokens)) :=
  (yields_expectMark plain tokens).bind fun _ here => .ok here

end Marks

theorem takes_expectName (tokens : List Token) : Takes tokens (expectName tokens) := by
  unfold expectName
  split
  · exact .ok (.one rfl)
  · exact .error _

/-! ### Lists -/

/-- Balanced tokens up to a closing mark. -/
def ClosedBy (closing : String) (tokens rest : List Token) : Prop :=
  ∃ span, Consumes tokens (⟨.mark closing, span⟩ :: rest)

theorem ClosedBy.consumes {closing : String} {tokens rest : List Token}
    (closed : ClosedBy closing tokens rest) (plain : (TokenKind.mark closing).isBrace = false) :
    Consumes tokens rest := by
  obtain ⟨span, inner⟩ := closed
  exact inner.trans (.mark plain)

/-- **Items up to a closing mark are balanced** if every one of them is. -/
theorem parseItems_closedBy {α : Type} {item : Reader α}
    (each : ∀ tokens, Takes tokens (item tokens)) (closing : String) (fuel : Nat)
    (tokens : List Token) :
    Yields (fun value => ClosedBy closing tokens value.2)
      (parseItems item closing fuel tokens) := by
  induction fuel generalizing tokens with
  | zero => exact .error _
  | succ fuel ih =>
    unfold parseItems
    split
    next rest found =>
      obtain ⟨span, rfl⟩ := skipMark?_eq found
      exact .ok ⟨span, .refl _⟩
    next =>
      refine Yields.bind (each tokens) fun value here => ?_
      simp only
      split
      next rest found =>
        have comma : Consumes value.2 rest := consumes_skipMark? (by decide) found
        refine Yields.bind (ih rest) fun others later => .ok ?_
        obtain ⟨span, inner⟩ := later
        exact ⟨span, here.trans (comma.trans inner)⟩
      next =>
        unfold expectMark
        split
        next rest found =>
          obtain ⟨span, same⟩ := skipMark?_eq found
          exact .ok ⟨span, same ▸ here⟩
        next => exact .error _

theorem takes_parseKey (tokens : List Token) : Takes tokens (parseKey tokens) := by
  unfold parseKey
  split
  · exact .ok (.one rfl)
  · exact .ok (.one rfl)
  · exact .ok (.one rfl)
  · exact .error _

theorem takes_parseField {value : Reader Expr} (each : ∀ tokens, Takes tokens (value tokens))
    (tokens : List Token) : Takes tokens (parseField value tokens) := by
  unfold parseField
  refine (takes_parseKey tokens).bind fun key rest => ?_
  simp only
  split
  next after found =>
    have colon : Consumes rest after := consumes_skipMark? (by decide) found
    refine Takes.after colon ((each after).bind fun value rest => ?_)
    exact .ok (.refl rest)
  next => exact .ok (.refl _)

/-! ### Operands -/

section Operands

variable {inner : Reader Expr} (each : ∀ tokens, Takes tokens (inner tokens))
include each

theorem takes_parsePrimary (tokens : List Token) : Takes tokens (parsePrimary inner tokens) := by
  unfold parsePrimary
  split
  · exact .ok (.one rfl)
  · exact .ok (.one rfl)
  · exact .ok (.one rfl)
  · refine Takes.after (.mark (by decide)) ((each _).bind fun value rest => ?_)
    exact takes_expectMark (by decide) value rest
  · refine Takes.after (.mark (by decide)) ?_
    refine Yields.bind (parseItems_closedBy each "]" _ _) fun items closed => .ok ?_
    exact closed.consumes (by decide)
  · refine Yields.bind (parseItems_closedBy (takes_parseField each) "\x7d" _ _)
      fun fields closed => .ok ?_
    obtain ⟨span, inside⟩ := closed
    exact inside.braces
  · exact .error _

theorem takes_parseAccess (target : Expr) (access : AccessMark) (tokens : List Token) :
    Takes tokens (parseAccess inner target access tokens) := by
  have member : ∀ optional tokens, Takes tokens (expectName tokens >>= fun found =>
      .ok (Expr.member target found.1 optional, found.2)) :=
    fun optional tokens => (takes_expectName tokens).bind fun _ _ => .ok (.refl _)
  have index : ∀ optional tokens, Takes tokens (inner tokens >>= fun found =>
      expectMark "]" found.2 >>= fun rest => .ok (Expr.index target found.1 optional, rest)) :=
    fun optional tokens => (each tokens).bind fun key rest => takes_expectMark (by decide) _ rest
  have call : ∀ optional tokens, Takes tokens (parseItems inner ")" tokens.length tokens >>=
      fun found => .ok (Expr.call target found.1 optional, found.2)) :=
    fun optional tokens => Yields.bind (parseItems_closedBy each ")" _ _)
      fun args closed => .ok (closed.consumes (by decide))
  unfold parseAccess
  cases access with
  | member => exact member false tokens
  | index => exact index false tokens
  | call => exact call false tokens
  | optional =>
    simp only
    split
    next _ _ _ found => exact (call true _).after (consumes_skipMark? (by decide) found)
    next _ _ _ found => exact (index true _).after (consumes_skipMark? (by decide) found)
    next => exact member true tokens

end Operands

/-! ### Chains -/

theorem consumes_accessAt? {tokens rest : List Token} {access : AccessMark}
    (found : accessAt? tokens = some (access, rest)) : Consumes tokens rest := by
  unfold accessAt? at found
  split at found
  case h_5 => cases found
  all_goals
    cases found
    exact .mark (by decide)

theorem consumes_unaryAt? {tokens rest : List Token} {op : UnaryOp}
    (found : unaryAt? tokens = some (op, rest)) : Consumes tokens rest := by
  unfold unaryAt? at found
  split at found
  case h_5 => cases found
  case h_4 =>
    cases found
    exact .one rfl
  all_goals
    cases found
    exact .mark (by decide)

/-- No operator between two operands is a brace. -/
theorem isBrace_of_mem_levelOperators {level : Nat} {entry : String × Operator}
    (listed : entry ∈ levelOperators level) : (TokenKind.mark entry.1).isBrace = false := by
  revert entry
  unfold levelOperators
  split <;> decide

theorem consumes_operatorAt? {level : Nat} {tokens rest : List Token} {operator : Operator}
    (found : operatorAt? level tokens = some (operator, rest)) : Consumes tokens rest := by
  unfold operatorAt? at found
  split at found
  next text span tail =>
    obtain ⟨other, listed, same⟩ := Option.map_eq_some_iff.mp found
    obtain ⟨before, after, whole, _⟩ := List.lookup_eq_some_iff.mp listed
    cases same
    have member : (text, operator) ∈ levelOperators level := by
      rw [whole]
      exact List.mem_append_right _ List.mem_cons_self
    exact .mark (isBrace_of_mem_levelOperators member)
  next =>
    split at found <;> cases found
    exact .one rfl
  next => cases found

theorem takes_parseAccesses {budget : Nat}
    (each : ∀ less < budget, ∀ tokens, Takes tokens (parseExpr less tokens))
    (target : Expr) (tokens : List Token) :
    Takes tokens (parseAccesses budget target tokens) := by
  induction budget generalizing target tokens with
  | zero =>
    unfold parseAccesses
    split
    · exact .ok (.refl tokens)
    · exact .error _
  | succ budget ih =>
    unfold parseAccesses
    split
    · exact .ok (.refl tokens)
    next access rest found =>
      refine Takes.after (consumes_accessAt? found) ?_
      refine (takes_parseAccess (each budget (Nat.lt_succ_self budget)) target access rest).bind
        fun value after => ?_
      exact ih (fun less lt => each less (Nat.lt_succ_of_lt lt)) value after

theorem takes_parseOperand {budget : Nat}
    (each : ∀ less ≤ budget, ∀ tokens, Takes tokens (parseExpr less tokens))
    (tokens : List Token) : Takes tokens (parseOperand budget tokens) := by
  unfold parseOperand
  refine (takes_parsePrimary (each budget (Nat.le_refl budget)) tokens).bind fun value rest => ?_
  exact takes_parseAccesses (fun less lt => each less lt.le) value rest

theorem takes_parseUnary {budget : Nat}
    (each : ∀ less ≤ budget, ∀ tokens, Takes tokens (parseExpr less tokens))
    (tokens : List Token) : Takes tokens (parseUnary budget tokens) := by
  induction budget generalizing tokens with
  | zero =>
    unfold parseUnary
    split
    · exact takes_parseOperand each tokens
    · exact .error _
  | succ budget ih =>
    unfold parseUnary
    split
    · exact takes_parseOperand each tokens
    next op rest found =>
      refine Takes.after (consumes_unaryAt? found) ?_
      refine (ih (fun less le => each less (Nat.le_succ_of_le le)) rest).bind fun value after => ?_
      exact .ok (.refl after)

theorem takes_parseChain {budget level : Nat}
    (operand : ∀ less < budget, ∀ tokens, Takes tokens (parseLevel less (level + 1) tokens))
    (left : Expr) (tokens : List Token) : Takes tokens (parseChain budget level left tokens) := by
  induction budget generalizing left tokens with
  | zero =>
    unfold parseChain
    split
    · exact .ok (.refl tokens)
    · exact .error _
  | succ budget ih =>
    unfold parseChain
    split
    · exact .ok (.refl tokens)
    next operator rest found =>
      refine Takes.after (consumes_operatorAt? found) ?_
      refine (operand budget (Nat.lt_succ_self budget) rest).bind fun value after => ?_
      exact ih (fun less lt => operand less (Nat.lt_succ_of_lt lt)) (operator.join left value) after

/-- **A chain of a level takes balanced tokens.** -/
theorem takes_parseLevel {budget level : Nat}
    (each : ∀ less ≤ budget, ∀ tokens, Takes tokens (parseExpr less tokens))
    (inside : level ≤ levelCount) (tokens : List Token) :
    Takes tokens (parseLevel budget level tokens) := by
  -- The levels are counted down from the last one, for all smaller budgets at once.
  induction inside using Nat.decreasingInduction generalizing budget tokens with
  | self =>
    unfold parseLevel
    rw [if_neg (Nat.lt_irrefl levelCount)]
    exact takes_parseUnary each tokens
  | of_succ level lt ih =>
    unfold parseLevel
    rw [if_pos lt]
    refine (ih each tokens).bind fun value rest => ?_
    exact takes_parseChain (fun less smaller => ih fun other le =>
      each other (Nat.le_trans le smaller.le)) value rest

/-! ### Expressions -/

theorem takes_parseConditional {budget : Nat}
    (each : ∀ less ≤ budget, ∀ tokens, Takes tokens (parseExpr less tokens))
    (tokens : List Token) : Takes tokens (parseConditional budget tokens) := by
  unfold parseConditional
  refine (takes_parseLevel each (Nat.zero_le levelCount) tokens).bind fun test rest => ?_
  simp only
  split
  · exact .ok (.refl rest)
  next after found =>
    refine Takes.after (consumes_skipMark? (by decide) found) ?_
    refine (each budget (Nat.le_refl budget) after).bind fun consequent rest => ?_
    refine Yields.bind (yields_expectMark (by decide) rest) fun colon here => ?_
    refine Takes.after here ((each budget (Nat.le_refl budget) colon).bind fun alternate rest => ?_)
    exact .ok (.refl rest)

/-- **An expression takes balanced tokens.** -/
theorem takes_parseExpr (budget : Nat) (tokens : List Token) :
    Takes tokens (parseExpr budget tokens) := by
  induction budget using Nat.strong_induction_on generalizing tokens with
  | h budget ih =>
    unfold parseExpr
    cases budget with
    | zero => exact .error _
    | succ budget =>
      exact takes_parseConditional (fun less le => ih less (Nat.lt_succ_of_le le)) tokens

/-- **The tokens of a text that is an expression are balanced up to the end.** -/
theorem balanced_of_parse {source : String} {expr : Expr} (parsed : parse source = .ok expr) :
    ∃ tokens span rest, tokenize source = .ok tokens ∧ Consumes tokens (⟨.stop, span⟩ :: rest) := by
  unfold parse at parsed
  cases read : tokenize source with
  | error fault =>
    rw [read] at parsed
    cases parsed
  | ok tokens =>
    have takes := takes_parseExpr depthLimit tokens
    rw [read] at parsed
    cases found : parseExpr depthLimit tokens with
    | error fault => simp [found, bind, Except.bind] at parsed
    | ok value =>
      have consumed := takes value found
      simp only [found, bind, Except.bind] at parsed
      split at parsed
      next span rest same => exact ⟨tokens, span, rest, rfl, same ▸ consumed⟩
      next => cases parsed

end PromptMarkup.Expr
