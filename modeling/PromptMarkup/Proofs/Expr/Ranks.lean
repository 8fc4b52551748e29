/-
**Ranks of expressions.**

An expression is read as its rank asks for: a conditional up to what ends an expression, an operator
of a level so that the chain of that level goes on behind it, an operator in front of an operand up
to the accesses, and an operand so that its accesses go on behind it. Where one of a greater rank
has to stand the parentheses make an operand of it.

* `Reaches`: an outcome is another one, or there is no room for it and it nests too deeply;
* `Leads`, `Reads`: what a parser makes of some tokens in front of others;
* `IsRead`: tokens are read as an expression of a rank, and with it as one of an earlier rank;
* `isRead_parentheses`, `isRead_wrap`, `isRead_access`: operands;
* `isRead_joined`, `isRead_unary`, `isRead_conditional`: operators.
-/

import Mathlib.Data.Nat.Init
import PromptMarkup.Proofs.Expr.Outcome
import PromptMarkup.Proofs.Expr.Spelling

namespace PromptMarkup.Expr

/-! ### Outcomes -/

/-- An outcome is the one aimed at. If there is no room, the expression may nest too deeply. -/
def Reaches {α : Type} (room : Prop) (outcome target : Except ExprError α) : Prop :=
  outcome = target ∨ ¬room ∧ ∃ offset, outcome = .error (.malformed .nestsTooDeeply offset)

namespace Reaches

variable {α β : Type} {room : Prop} {outcome middle target : Except ExprError α}

theorem of_eq (same : outcome = target) : Reaches room outcome target := .inl same

theorem refl (outcome : Except ExprError α) : Reaches room outcome outcome := .of_eq rfl

theorem tooDeep (tokens : List Token) (short : ¬room) :
    Reaches room (.error (tooDeep tokens)) target := .inr ⟨short, _, rfl⟩

/-- There is room for a part where there is room for the whole. -/
theorem mono {whole : Prop} (reaches : Reaches room outcome target) (part : whole → room) :
    Reaches whole outcome target :=
  reaches.imp id fun ⟨short, deep⟩ => ⟨fun enough => short (part enough), deep⟩

theorem trans (first : Reaches room outcome middle) (second : Reaches room middle target) :
    Reaches room outcome target := by
  rcases first with rfl | deep
  · exact second
  · exact .inr deep

/-- An outcome in front of another one. -/
theorem bind {value : α} {next : α → Except ExprError β} {target : Except ExprError β}
    (first : Reaches room outcome (.ok value)) (second : Reaches room (next value) target) :
    Reaches room (outcome >>= next) target := by
  rcases first with rfl | ⟨short, offset, rfl⟩
  · exact second
  · exact .inr ⟨short, offset, rfl⟩

end Reaches

/-! ### Parsers -/

/-- With tokens in front of some others, a parser does what is left to do behind an expression. No
token takes more than one from the budget, so there is room if it is not less than their number. -/
def Leads (parser : Nat → Reader Expr) (ends : List Token → Prop)
    (more : Nat → Expr → Reader Expr) (kinds : List TokenKind) (expr : Expr) : Prop :=
  ∀ budget tokens rest, Front kinds tokens rest → ends rest →
    ∃ left, budget ≤ left + kinds.length ∧
      Reaches (kinds.length ≤ budget) (parser budget tokens) (more left expr rest)

/-- With tokens in front of some others, a parser that takes some of the budget itself yields a
value and those others. -/
def Reads {α : Type} (cost : Nat) (parser : Nat → Reader α) (ends : List Token → Prop)
    (kinds : List TokenKind) (value : α) : Prop :=
  ∀ budget tokens rest, Front kinds tokens rest → ends rest →
    Reaches (kinds.length + cost ≤ budget) (parser budget tokens) (.ok (value, rest))

/-- No access comes next. -/
def EndsAccesses (rest : List Token) : Prop := accessAt? rest = none

/-- Tokens are read as an expression of a rank. -/
inductive IsRead (kinds : List TokenKind) (expr : Expr) : Nat → Prop
  | whole (reads : Reads 1 parseExpr Closes kinds expr) : IsRead kinds expr 0
  | chain (level : Nat) (inside : level < levelCount)
      (leads : Leads (parseLevel · level) (Stops (level + 1)) (parseChain · level) kinds expr) :
      IsRead kinds expr (level + 1)
  | unary (reads : Reads 0 parseUnary EndsAccesses kinds expr) : IsRead kinds expr unaryRank
  | operand (leads : Leads parseUnary (fun _ => True) parseAccesses kinds expr) :
      IsRead kinds expr operandRank

/-! ### From rank to rank -/

section Ranks

variable {kinds : List TokenKind} {expr : Expr}

/-- What stands on a level stands on those in front of it, where no operator of theirs follows. -/
theorem Reads.pass {level inner : Nat}
    (reads : Reads 0 (parseLevel · inner) (Stops inner) kinds expr) (le : level ≤ inner)
    (inside : inner ≤ levelCount) : Reads 0 (parseLevel · level) (Stops level) kinds expr := by
  induction le using Nat.decreasingInduction with
  | self => exact reads
  | of_succ level lt ih =>
    intro budget tokens rest front stops
    have below : level < levelCount := Nat.lt_of_lt_of_le lt inside
    have ends := stops.2 level (Nat.le_refl level) below
    show Reaches _ (parseLevel budget level tokens) _
    rw [parseLevel, if_pos below]
    exact .bind (ih budget tokens rest front (stops.mono (Nat.le_succ level)))
      (.of_eq (parseChain_stop budget expr ends))

/-- An operand may stand alone. -/
theorem Leads.unary (leads : Leads parseUnary (fun _ => True) parseAccesses kinds expr) :
    Reads 0 parseUnary EndsAccesses kinds expr := by
  intro budget tokens rest front ends
  obtain ⟨left, _, reaches⟩ := leads budget tokens rest front trivial
  exact reaches.trans (.of_eq (parseAccesses_stop left expr ends))

/-- A chain may end behind its first operator. -/
theorem Leads.level {level : Nat} (inside : level < levelCount)
    (leads : Leads (parseLevel · level) (Stops (level + 1)) (parseChain · level) kinds expr) :
    Reads 0 (parseLevel · level) (Stops level) kinds expr := by
  intro budget tokens rest front stops
  obtain ⟨left, _, reaches⟩ := leads budget tokens rest front (stops.mono (Nat.le_succ level))
  have ends := stops.2 level (Nat.le_refl level) inside
  exact reaches.trans (.of_eq (parseChain_stop left expr ends))

/-- Behind the last level come the operators in front of an operand. -/
theorem Reads.level (reads : Reads 0 parseUnary EndsAccesses kinds expr) :
    Reads 0 (parseLevel · levelCount) (Stops levelCount) kinds expr := by
  intro budget tokens rest front stops
  show Reaches _ (parseLevel budget levelCount tokens) _
  rw [parseLevel, if_neg (Nat.lt_irrefl levelCount)]
  exact reads budget tokens rest front stops.1

namespace IsRead

variable {rank : Nat}

/-- What is read as an operand with the operators in front of it. -/
theorem readsUnary (read : IsRead kinds expr rank) (le : unaryRank ≤ rank) :
    Reads 0 parseUnary EndsAccesses kinds expr := by
  cases read with
  | whole _ => exact absurd le (by decide)
  | chain level inside _ => exact absurd le (by unfold unaryRank; omega)
  | unary reads => exact reads
  | operand leads => exact leads.unary

/-- What is read as an operand. -/
theorem leadsOperand (read : IsRead kinds expr rank) (le : operandRank ≤ rank) :
    Leads parseUnary (fun _ => True) parseAccesses kinds expr := by
  cases read with
  | whole _ => exact absurd le (by decide)
  | chain level inside _ => exact absurd le (by unfold operandRank; omega)
  | unary _ => exact absurd le (by decide)
  | operand leads => exact leads

/-- What is read on a level. -/
theorem readsLevel {level : Nat} (read : IsRead kinds expr rank) (le : level + 1 ≤ rank)
    (inside : level ≤ levelCount) : Reads 0 (parseLevel · level) (Stops level) kinds expr := by
  cases read with
  | whole _ => exact absurd le (Nat.not_succ_le_zero level)
  | chain inner below leads =>
    exact (leads.level below).pass (Nat.le_of_succ_le_succ le) (Nat.le_of_lt below)
  | unary reads => exact reads.level.pass inside (Nat.le_refl levelCount)
  | operand leads => exact leads.unary.level.pass inside (Nat.le_refl levelCount)

/-- What is read in front of an operator of a level. -/
theorem leadsChain {level : Nat} (read : IsRead kinds expr rank) (le : level + 1 ≤ rank)
    (inside : level < levelCount) :
    Leads (parseLevel · level) (Stops (level + 1)) (parseChain · level) kinds expr := by
  rcases Nat.eq_or_lt_of_le le with rfl | lt
  · cases read with
    | chain _ _ leads => exact leads
    | unary _ => exact absurd inside (Nat.lt_irrefl levelCount)
    | operand _ => exact absurd inside (by decide)
  · intro budget tokens rest front stops
    have next := read.readsLevel lt inside budget tokens rest front stops
    refine ⟨budget, Nat.le_add_right _ _, ?_⟩
    show Reaches _ (parseLevel budget level tokens) _
    rw [parseLevel, if_pos inside]
    exact .bind next (.refl _)

/-- What is read as a whole expression. -/
theorem readsExpr (read : IsRead kinds expr rank) : Reads 1 parseExpr Closes kinds expr := by
  rcases Nat.eq_zero_or_pos rank with rfl | positive
  · cases read with
    | whole reads => exact reads
  · intro budget tokens rest front closes
    cases budget with
    | zero =>
      rw [parseExpr]
      exact .tooDeep tokens (Nat.not_succ_le_zero _)
    | succ budget =>
      rw [parseExpr, parseConditional]
      have level := read.readsLevel positive (Nat.zero_le levelCount)
      have test := level budget tokens rest front closes.1
      refine .bind (test.mono Nat.le_of_succ_le_succ) ?_
      simp only [closes.2]
      exact .refl _

end IsRead

end Ranks

/-! ### Operands -/

theorem skipMark?_mark (mark : String) (span : Span) (rest : List Token) :
    skipMark? mark (⟨.mark mark, span⟩ :: rest) = some rest := if_pos rfl

theorem expectMark_mark (mark : String) (span : Span) (rest : List Token) :
    expectMark mark (⟨.mark mark, span⟩ :: rest) = .ok rest := by
  unfold expectMark
  rw [skipMark?_mark]

section Operands

variable {kinds : List TokenKind} {expr : Expr}

/-- An operand without accesses of its own. -/
theorem isRead_primary
    (reads : ∀ budget tokens rest, Front kinds tokens rest → unaryAt? tokens = none ∧
      Reaches (kinds.length ≤ budget) (parsePrimary (fun tokens => parseExpr budget tokens) tokens)
        (.ok (expr, rest))) :
    IsRead kinds expr operandRank := by
  refine .operand fun budget tokens rest front _ => ?_
  obtain ⟨operand, reaches⟩ := reads budget tokens rest front
  refine ⟨budget, Nat.le_add_right _ _, ?_⟩
  rw [parseUnary, operand]
  simp only
  rw [parseOperand]
  exact .bind reaches (.refl _)

/-- **Parentheses make an operand.** -/
theorem isRead_parentheses (reads : Reads 1 parseExpr Closes kinds expr) :
    IsRead (.mark "(" :: kinds ++ [.mark ")"]) expr operandRank := by
  refine isRead_primary ?_
  rintro budget _ _ ⟨opening, inside, rfl, front⟩
  obtain ⟨_, content, closing, after, rfl, rfl⟩ := front_append.mp front
  have closes := closes_plain closing after (by decide : ")" ∈ plainMarks) (by decide)
  refine ⟨rfl, ?_⟩
  show Reaches _ (parseExpr budget inside >>= fun found => expectMark ")" found.2 >>=
    fun rest => .ok (found.1, rest)) _
  refine .bind ((reads budget inside _ content closes).mono fun room => ?_) ?_
  · simp only [List.length_append, List.length_cons, List.length_nil] at room
    omega
  exact .bind (.of_eq (expectMark_mark ")" closing after)) (.refl _)

/-- What is wrapped up has the rank that it has to have. -/
theorem isRead_wrap {rank least : Nat} (read : IsRead kinds expr rank)
    (le : least ≤ operandRank) :
    ∃ other, least ≤ other ∧ IsRead (wrap least rank kinds) expr other := by
  unfold wrap
  split
  next => exact ⟨operandRank, le, isRead_parentheses read.readsExpr⟩
  next ge => exact ⟨rank, Nat.le_of_not_lt ge, read⟩

/-- **An access behind an operand.** -/
theorem isRead_access {rank : Nat} {target : Expr} {access : List TokenKind}
    (read : IsRead kinds target rank)
    (step : ∀ budget tokens rest, Front access tokens rest →
      ∃ mark inside, accessAt? tokens = some (mark, inside) ∧
        Reaches (access.length ≤ budget + 1)
          (parseAccess (fun tokens => parseExpr budget tokens) target mark inside)
          (.ok (expr, rest))) :
    IsRead (wrap operandRank rank kinds ++ access) expr operandRank := by
  refine .operand fun budget tokens rest front _ => ?_
  obtain ⟨middle, operand, behind⟩ := front_append.mp front
  obtain ⟨other, ge, inner⟩ := isRead_wrap read (Nat.le_refl operandRank)
  obtain ⟨left, enough, reaches⟩ :=
    inner.leadsOperand ge budget tokens middle operand trivial
  obtain ⟨mark, inside, found, next⟩ := step (left - 1) middle rest behind
  have visible : 0 < access.length := by
    cases access with
    | nil =>
      obtain ⟨_, _, absurd, _⟩ := step 0 [] [] rfl
      cases absurd
    | cons _ _ => exact Nat.succ_pos _
  rw [List.length_append]
  refine ⟨left - 1, by omega, (reaches.mono (by omega)).trans ?_⟩
  rw [parseAccesses, found]
  cases left with
  | zero => exact .tooDeep middle (by omega)
  | succ left => exact .bind (next.mono (by omega)) (.refl _)

end Operands

/-! ### Operators -/

theorem Operator.level_lt (operator : Operator) : operator.level < levelCount := by
  cases operator with
  | binary op => cases op <;> decide
  | logical op => cases op <;> decide

/-- An operator is found on its level. -/
theorem operatorAt?_kind (operator : Operator) (span : Span) (rest : List Token) :
    operatorAt? operator.level (⟨operator.kind, span⟩ :: rest) = some (operator, rest) := by
  cases operator with
  | binary op => cases op <;> rfl
  | logical op => cases op <;> rfl

/-- An operator ends the operands of the levels behind its own. -/
theorem stops_kind (operator : Operator) (span : Span) (rest : List Token) :
    Stops (operator.level + 1) (⟨operator.kind, span⟩ :: rest) := by
  cases operator with
  | binary op =>
    cases op with
    | contains => exact ⟨rfl, fun other ge _ => if_neg fun same => Nat.ne_of_gt ge same.1⟩
    | _ => exact stops_mark span rest (by decide) (by decide)
  | logical op => cases op <;> exact stops_mark span rest (by decide) (by decide)

/-- **An operator between operands.** -/
theorem isRead_joined (operator : Operator) {left right : Expr}
    {leftKinds rightKinds : List TokenKind} {leftRank rightRank : Nat}
    (readLeft : IsRead leftKinds left leftRank) (readRight : IsRead rightKinds right rightRank) :
    IsRead (joined operator leftRank leftKinds rightRank rightKinds) (operator.join left right)
      (operator.level + 1) := by
  have inside := operator.level_lt
  refine .chain operator.level inside fun budget tokens rest front stops => ?_
  obtain ⟨_, first, span, after, rfl, second⟩ := front_append.mp front
  have near : operator.level + 2 ≤ operandRank := Nat.add_le_add_right (Nat.le_of_lt inside) 2
  obtain ⟨_, geLeft, readLeft⟩ := isRead_wrap readLeft (Nat.le_of_succ_le near)
  obtain ⟨_, geRight, readRight⟩ := isRead_wrap readRight near
  obtain ⟨more, enough, reaches⟩ := readLeft.leadsChain geLeft inside budget tokens _ first
    (stops_kind operator span after)
  unfold joined
  rw [List.length_append, List.length_cons]
  refine ⟨more - 1, by omega, (reaches.mono (by omega)).trans ?_⟩
  show Reaches _ (parseChain more operator.level left _) _
  rw [parseChain, operatorAt?_kind]
  simp only
  cases more with
  | zero => exact .tooDeep after (by omega)
  | succ more =>
    have operand := readRight.readsLevel geRight inside more after rest second stops
    exact .bind (operand.mono (by omega)) (.refl _)

/-- **An operator in front of an operand.** -/
theorem isRead_unary (op : UnaryOp) {operand : Expr} {kinds : List TokenKind} {rank : Nat}
    (read : IsRead kinds operand rank) :
    IsRead (op.kind :: wrap unaryRank rank kinds) (.unary op operand) unaryRank := by
  refine .unary ?_
  rintro budget _ rest ⟨span, after, rfl, front⟩ ends
  obtain ⟨_, ge, read⟩ := isRead_wrap read (by decide : unaryRank ≤ operandRank)
  have found : unaryAt? (⟨op.kind, span⟩ :: after) = some (op, after) := by cases op <;> rfl
  rw [parseUnary, found]
  simp only
  cases budget with
  | zero => exact .tooDeep after (Nat.not_succ_le_zero _)
  | succ budget =>
    have operand := read.readsUnary ge budget after rest front ends
    exact .bind (operand.mono Nat.le_of_succ_le_succ) (.refl _)

/-- **A conditional.** -/
theorem isRead_conditional {test consequent alternate : Expr}
    {testKinds consequentKinds alternateKinds : List TokenKind} {testRank : Nat}
    (readTest : IsRead testKinds test testRank)
    (readConsequent : Reads 1 parseExpr Closes consequentKinds consequent)
    (readAlternate : Reads 1 parseExpr Closes alternateKinds alternate) :
    IsRead (wrap 1 testRank testKinds ++
        .mark "?" :: consequentKinds ++ .mark ":" :: alternateKinds)
      (.conditional test consequent alternate) 0 := by
  refine .whole fun budget tokens rest front closes => ?_
  obtain ⟨_, chosen, colon, second, rfl, behind⟩ := front_append.mp front
  obtain ⟨_, condition, question, first, rfl, between⟩ := front_append.mp chosen
  obtain ⟨_, ge, readTest⟩ := isRead_wrap readTest (by decide : 1 ≤ operandRank)
  have stops := stops_plain question first (by decide : "?" ∈ plainMarks)
  have ends := closes_plain colon second (by decide : ":" ∈ plainMarks) (by decide)
  simp only [List.length_append, List.length_cons]
  cases budget with
  | zero =>
    rw [parseExpr]
    exact .tooDeep tokens (Nat.not_succ_le_zero _)
  | succ budget =>
    have test := readTest.readsLevel ge (Nat.zero_le _) budget tokens _ condition stops
    have consequent := readConsequent budget first _ between ends
    have alternate := readAlternate budget second rest behind closes
    rw [parseExpr, parseConditional]
    refine .bind (test.mono (by omega)) ?_
    refine .bind (consequent.mono (by omega)) ?_
    refine .bind (.of_eq (expectMark_mark ":" colon second)) ?_
    exact .bind (alternate.mono (by omega)) (.refl _)

end PromptMarkup.Expr
