/-
**What a parser yields.**

A parser of expressions fails or yields a value with the tokens behind it. What holds of every value
that it yields is put together from what holds of the values of its parts. An operand is over when no
access and no operator of its level or a later one comes next.

* `Yields`: every value of an outcome has a property;
* `Yields.bind`: outcomes one after the other;
* `parseItems_yields`, `parseField_yields`: lists and fields, by way of what is in them;
* `Stops`, `Closes`: tokens that end an operand on a level, or a whole expression;
* `stops_mark`, `stops_plain`, `closes_plain`, `closes_stop`: tokens that do;
* `parseAccesses_stop`, `parseChain_stop`: nothing is put on top of an operand there.
-/

import PromptMarkup.Expr.Parser

namespace PromptMarkup.Expr

/-- If there is a value, it has the property. -/
def Yields {α : Type} (holds : α → Prop) (outcome : Except ExprError α) : Prop :=
  ∀ value, outcome = .ok value → holds value

/-- A value is handed on. -/
theorem ok_bind {α β : Type} (value : α) (next : α → Except ExprError β) :
    (Except.ok value >>= next) = next value := rfl

namespace Yields

variable {α β : Type} {holds : α → Prop} {outcome : Except ExprError α}

theorem ok {value : α} (true : holds value) : Yields holds (.ok value) := by
  intro other same
  rwa [← Except.ok.inj same]

theorem error (fault : ExprError) : Yields holds (.error fault) := by
  intro value absurd
  cases absurd

theorem mono {weaker : α → Prop} (yields : Yields holds outcome)
    (weaken : ∀ value, holds value → weaker value) : Yields weaker outcome :=
  fun value same => weaken value (yields value same)

/-- Outcomes one after the other. -/
theorem bind {after : β → Prop} {next : α → Except ExprError β} (yields : Yields holds outcome)
    (step : ∀ value, holds value → Yields after (next value)) :
    Yields after (outcome >>= next) := by
  cases outcome with
  | error fault => exact error fault
  | ok value => exact step value (yields value rfl)

/-- Any outcome in front of another one. -/
theorem bind_any {after : β → Prop} {next : α → Except ExprError β}
    (step : ∀ value, Yields after (next value)) : Yields after (outcome >>= next) := by
  have anything : Yields (fun _ => True) outcome := fun _ _ => trivial
  exact anything.bind fun value _ => step value

end Yields

/-! ### Lists -/

/-- **The items of a list are what their parser yields.** -/
theorem parseItems_yields {α : Type} (holds : α → Prop) {item : Reader α}
    (each : ∀ tokens, Yields (fun value => holds value.1) (item tokens)) (closing : String)
    (fuel : Nat) (tokens : List Token) :
    Yields (fun value => ∀ inner ∈ value.1, holds inner) (parseItems item closing fuel tokens) := by
  induction fuel generalizing tokens with
  | zero => exact .error _
  | succ fuel ih =>
    unfold parseItems
    split
    · exact .ok fun inner member => by cases member
    · refine (each tokens).bind fun value here => ?_
      simp only
      split
      · refine (ih _).bind fun others later => ?_
        exact .ok (List.forall_mem_cons.mpr ⟨here, later⟩)
      · refine .bind_any fun rest => ?_
        exact .ok (List.forall_mem_singleton.mpr here)

/-- The value of a field is what its parser yields, or a name. -/
theorem parseField_yields (holds : Expr → Prop) {value : Reader Expr}
    (each : ∀ tokens, Yields (fun result => holds result.1) (value tokens))
    (names : ∀ text, holds (.name text)) (tokens : List Token) :
    Yields (fun result => holds result.1.2) (parseField value tokens) := by
  unfold parseField
  refine .bind_any fun key => ?_
  simp only
  split
  · refine (each _).bind fun result here => ?_
    exact .ok here
  · exact .ok (names key.1)

/-! ### Where an operand ends -/

/-- No access and no operator of a level or a later one comes next. -/
def Stops (level : Nat) (rest : List Token) : Prop :=
  accessAt? rest = none ∧
    ∀ other, level ≤ other → other < levelCount → operatorAt? other rest = none

/-- Neither an access nor an operator comes next, and no question mark. -/
def Closes (rest : List Token) : Prop := Stops 0 rest ∧ skipMark? "?" rest = none

theorem Stops.mono {less more : Nat} {rest : List Token} (stops : Stops less rest)
    (le : less ≤ more) : Stops more rest :=
  ⟨stops.1, fun other ge => stops.2 other (Nat.le_trans le ge)⟩

/-- A mark that begins no access and is no operator of a level or a later one. -/
theorem stops_mark {level : Nat} {mark : String} (span : Span) (rest : List Token)
    (noAccess : mark ∉ [".", "?.", "[", "("])
    (noOperator : ∀ other < levelCount, level ≤ other → (levelOperators other).lookup mark = none) :
    Stops level (⟨.mark mark, span⟩ :: rest) := by
  refine ⟨?_, fun other ge lt => ?_⟩
  · unfold accessAt?
    split
    all_goals first | rfl | simp_all
  · show ((levelOperators other).lookup mark).map (·, rest) = none
    rw [noOperator other lt ge]
    rfl

/-- Marks that are no part of a chain or of an access. -/
def plainMarks : List String := [")", "]", "\x7d", ",", ":", "?"]

/-- A mark that begins no access and is no operator at all. -/
theorem stops_plain {mark : String} (span : Span) (rest : List Token)
    (plain : mark ∈ plainMarks) : Stops 0 (⟨.mark mark, span⟩ :: rest) := by
  have noAccess : ∀ mark ∈ plainMarks, mark ∉ [".", "?.", "[", "("] := by decide
  have noOperator : ∀ mark ∈ plainMarks, ∀ other < levelCount, 0 ≤ other →
      (levelOperators other).lookup mark = none := by decide
  exact stops_mark span rest (noAccess mark plain) (noOperator mark plain)

/-- A mark that ends an expression. -/
theorem closes_plain {mark : String} (span : Span) (rest : List Token)
    (plain : mark ∈ plainMarks) (other : mark ≠ "?") : Closes (⟨.mark mark, span⟩ :: rest) :=
  ⟨stops_plain span rest plain, if_neg other⟩

/-- The end of a text ends an expression. -/
theorem closes_stop (span : Span) : Closes [⟨.stop, span⟩] := ⟨⟨rfl, fun _ _ _ => rfl⟩, rfl⟩

theorem parseAccesses_stop (budget : Nat) (target : Expr) {rest : List Token}
    (stop : accessAt? rest = none) : parseAccesses budget target rest = .ok (target, rest) := by
  rw [parseAccesses, stop]

theorem parseChain_stop (budget : Nat) {level : Nat} (left : Expr) {rest : List Token}
    (stop : operatorAt? level rest = none) :
    parseChain budget level left rest = .ok (left, rest) := by
  rw [parseChain, stop]

end PromptMarkup.Expr
