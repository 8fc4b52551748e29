/-
**The highest expressions.**

The bound on the height of expressions is met. A tower with a budget is a pair of brackets around
the tower with one less, behind which as many accesses stand as the budget allows, then as many
operators of each level, and then a conditional. So the limit on nesting lets expressions through
that are far higher than it.

* `parseLevel_pass`, `parseLevel_letter`: operands, and names in particular, on every level;
* `makes_parseChain`, `makes_parseAccesses`: what chains and accesses put on top of an expression;
* `tower`, `makes_tower`: the towers, and what the parser makes of them;
* `height_le_iff`: the greatest height of an expression.
-/

import PromptMarkup.Proofs.Expr.Height
import PromptMarkup.Proofs.Expr.Outcome
import PromptMarkup.Proofs.Expr.Spelling

namespace PromptMarkup.Expr

/-! ### Operands -/

/-- An outcome with an expression of a height in front of some tokens. -/
def Makes (height : Nat) (rest : List Token) (outcome : Except ExprError (Expr × List Token)) :
    Prop :=
  ∃ expr, outcome = .ok (expr, rest) ∧ expr.height = height

/-- What has been parsed on a level stands on all levels in front of it, if no operator of theirs
follows. -/
theorem parseLevel_pass {budget level inner : Nat} {expr : Expr} {tokens rest : List Token}
    (found : parseLevel budget inner tokens = .ok (expr, rest)) (le : level ≤ inner)
    (inside : inner ≤ levelCount) (stops : Stops level rest) :
    parseLevel budget level tokens = .ok (expr, rest) := by
  induction le using Nat.decreasingInduction with
  | self => exact found
  | of_succ level lt ih =>
    have below : level < levelCount := Nat.lt_of_lt_of_le lt inside
    rw [parseLevel, if_pos below, ih (stops.mono (Nat.le_succ level))]
    exact parseChain_stop budget _ (stops.2 level (Nat.le_refl level) below)

/-- What has been parsed as an operand stands on every level, if no operator of one follows. -/
theorem parseLevel_operand {budget level : Nat} {expr : Expr} {tokens rest : List Token}
    (found : parseUnary budget tokens = .ok (expr, rest)) (inside : level ≤ levelCount)
    (stops : Stops level rest) : parseLevel budget level tokens = .ok (expr, rest) := by
  refine parseLevel_pass ?_ inside (Nat.le_refl levelCount) stops
  rw [parseLevel, if_neg (Nat.lt_irrefl levelCount), found]

theorem parseUnary_letter (budget : Nat) {tokens rest : List Token}
    (front : Front [.name "a"] tokens rest) :
    parseUnary budget tokens = parseAccesses budget (.name "a") rest := by
  obtain ⟨span, after, rfl, rfl⟩ := front
  rw [parseUnary]
  show parseOperand budget _ = _
  rw [parseOperand]
  rfl

/-- A single letter is an operand, with any budget. -/
theorem parseLevel_letter (budget : Nat) {level : Nat} {tokens rest : List Token}
    (inside : level ≤ levelCount) (front : Front [.name "a"] tokens rest)
    (stops : Stops level rest) : parseLevel budget level tokens = .ok (.name "a", rest) := by
  refine parseLevel_operand ?_ inside stops
  rw [parseUnary_letter budget front, parseAccesses_stop budget _ stops.1]

/-- What has been parsed as a chain is an expression, if nothing follows that continues one. -/
theorem parseExpr_closes {budget : Nat} {expr : Expr} {tokens rest : List Token}
    (found : parseLevel budget 0 tokens = .ok (expr, rest)) (closes : Closes rest) :
    parseExpr (budget + 1) tokens = .ok (expr, rest) := by
  rw [parseExpr, parseConditional, found]
  simp only [ok_bind, closes.2]
  rfl

theorem parseExpr_letter (budget : Nat) {tokens rest : List Token}
    (front : Front [.name "a"] tokens rest) (closes : Closes rest) :
    parseExpr (budget + 1) tokens = .ok (.name "a", rest) :=
  parseExpr_closes (parseLevel_letter budget (Nat.zero_le _) front closes.1) closes

/-! ### Chains -/

/-- Some words a number of times in a row. -/
def times (count : Nat) (kinds : List TokenKind) : List TokenKind :=
  (List.replicate count kinds).flatten

theorem times_succ (count : Nat) (kinds : List TokenKind) :
    times (count + 1) kinds = kinds ++ times count kinds := by
  unfold times
  rw [List.replicate_succ, List.flatten_cons]

/-- The mark of an operator of a level. -/
def levelMark : Nat → String
  | 0 => "??"
  | 1 => "||"
  | 2 => "&&"
  | 3 => "=="
  | 4 => "<"
  | 5 => "+"
  | _ => "*"

theorem operatorAt?_levelMark {level : Nat} (inside : level < levelCount) (span : Span)
    (rest : List Token) :
    ∃ operator, operatorAt? level (⟨.mark (levelMark level), span⟩ :: rest) =
      some (operator, rest) := by
  have found : ∀ level < levelCount,
      ((levelOperators level).lookup (levelMark level)).isSome := by decide
  obtain ⟨operator, same⟩ := Option.isSome_iff_exists.mp (found level inside)
  refine ⟨operator, ?_⟩
  show ((levelOperators level).lookup (levelMark level)).map (·, rest) = _
  rw [same]
  rfl

theorem stops_levelMark {level : Nat} (inside : level < levelCount) (span : Span)
    (rest : List Token) : Stops (level + 1) (⟨.mark (levelMark level), span⟩ :: rest) := by
  have noAccess : ∀ level < levelCount, levelMark level ∉ [".", "?.", "[", "("] := by decide
  have noOperator : ∀ level < levelCount, ∀ other < levelCount, level + 1 ≤ other →
      (levelOperators other).lookup (levelMark level) = none := by decide
  exact stops_mark span rest (noAccess level inside) (noOperator level inside)

/-- A chain of a level behind its left part. -/
theorem makes_parseChain {budget count level : Nat} (fits : count ≤ budget)
    (inside : level < levelCount) (left : Expr) {tokens rest : List Token}
    (front : Front (times count [.mark (levelMark level), .name "a"]) tokens rest)
    (stops : Stops level rest) :
    Makes (left.height + count) rest (parseChain budget level left tokens) := by
  induction count generalizing budget left tokens with
  | zero =>
    obtain rfl : tokens = rest := front
    exact ⟨left, parseChain_stop _ left (stops.2 level (Nat.le_refl level) inside), rfl⟩
  | succ count ih =>
    obtain ⟨budget, rfl⟩ := Nat.exists_eq_succ_of_ne_zero (Nat.ne_of_gt (Nat.zero_lt_of_lt fits))
    rw [times_succ] at front
    obtain ⟨behind, ⟨span, word, rfl, letter⟩, later⟩ := front_append.mp front
    obtain ⟨operator, found⟩ := operatorAt?_levelMark inside span word
    have ends : Stops (level + 1) behind := by
      cases count with
      | zero =>
        obtain rfl : behind = rest := later
        exact stops.mono (Nat.le_succ level)
      | succ count =>
        rw [times_succ] at later
        obtain ⟨next, after, rfl, _⟩ := later
        exact stops_levelMark inside next after
    obtain ⟨expr, same, height⟩ :=
      ih (Nat.le_of_succ_le_succ fits) (operator.join left (.name "a")) later
    refine ⟨expr, ?_, ?_⟩
    · rw [parseChain, found]
      simp only
      rw [parseLevel_letter budget (Nat.succ_le_of_lt inside) letter ends]
      exact same
    · have positive := height_pos left
      have name : (Expr.name "a").height = 1 := rfl
      rw [height, height_join, name]
      omega

/-- Accesses behind an operand. -/
theorem makes_parseAccesses {budget count : Nat} (fits : count ≤ budget) (target : Expr)
    {tokens rest : List Token} (front : Front (times count [.mark ".", .name "a"]) tokens rest)
    (stop : accessAt? rest = none) :
    Makes (target.height + count) rest (parseAccesses budget target tokens) := by
  induction count generalizing budget target tokens with
  | zero =>
    obtain rfl : tokens = rest := front
    exact ⟨target, parseAccesses_stop _ target stop, rfl⟩
  | succ count ih =>
    obtain ⟨budget, rfl⟩ := Nat.exists_eq_succ_of_ne_zero (Nat.ne_of_gt (Nat.zero_lt_of_lt fits))
    rw [times_succ] at front
    obtain ⟨behind, ⟨span, word, rfl, letter, after, rfl, rfl⟩, later⟩ := front_append.mp front
    obtain ⟨expr, same, height⟩ :=
      ih (Nat.le_of_succ_le_succ fits) (.member target "a" false) later
    refine ⟨expr, ?_, ?_⟩
    · rw [parseAccesses]
      exact same
    · rw [height]
      show target.height + 1 + count = _
      omega

/-! ### Levels -/

/-- A chain for each of the last levels, the last level first. -/
def chains (budget : Nat) : Nat → List TokenKind
  | 0 => []
  | count + 1 =>
    chains budget count ++ times budget [.mark (levelMark (levelCount - (count + 1))), .name "a"]

/-- Chains behind an operand put an expression on top of it for each of their operators. -/
theorem makes_parseLevel {budget height count : Nat} {base : List TokenKind}
    (operand : ∀ tokens rest, Front base tokens rest → accessAt? rest = none →
      Makes height rest (parseUnary budget tokens))
    (inside : count ≤ levelCount) {tokens rest : List Token}
    (front : Front (base ++ chains budget count) tokens rest)
    (stops : Stops (levelCount - count) rest) :
    Makes (height + count * budget) rest (parseLevel budget (levelCount - count) tokens) := by
  induction count generalizing rest with
  | zero =>
    rw [chains, List.append_nil] at front
    obtain ⟨expr, same, found⟩ := operand tokens rest front stops.1
    refine ⟨expr, ?_, ?_⟩
    · rw [Nat.sub_zero, parseLevel, if_neg (Nat.lt_irrefl levelCount), same]
    · rw [found, Nat.zero_mul, Nat.add_zero]
  | succ count ih =>
    have lt : levelCount - (count + 1) < levelCount := by omega
    have next : levelCount - (count + 1) + 1 = levelCount - count := by omega
    rw [chains, ← List.append_assoc] at front
    obtain ⟨middle, left, right⟩ := front_append.mp front
    have ends : Stops (levelCount - count) middle := by
      rw [← next]
      cases budget with
      | zero =>
        obtain rfl : middle = rest := right
        exact stops.mono (Nat.le_succ _)
      | succ budget =>
        rw [times_succ] at right
        obtain ⟨span, after, rfl, _⟩ := right
        exact stops_levelMark lt span after
    obtain ⟨first, sameFirst, heightFirst⟩ := ih (Nat.le_of_succ_le inside) left ends
    obtain ⟨expr, same, heightAll⟩ := makes_parseChain (Nat.le_refl budget) lt first right stops
    refine ⟨expr, ?_, ?_⟩
    · rw [parseLevel, if_pos lt, next, sameFirst]
      exact same
    · rw [heightAll, heightFirst, Nat.add_mul, Nat.one_mul, Nat.add_assoc]

/-! ### Towers -/

/-- The words of an expression of the greatest height with a budget. -/
def tower : Nat → List TokenKind
  | 0 => []
  | 1 => [.mark "\x7b", .name "a", .mark "\x7d"]
  | budget + 2 =>
    ([.mark "["] ++ tower (budget + 1) ++ [.mark "]"] ++
        times (budget + 1) [.mark ".", .name "a"]) ++
      chains (budget + 1) levelCount ++ [.mark "?", .name "a", .mark ":", .name "a"]

/-- The first word of a tower is an opening mark. -/
theorem exists_tower_eq (budget : Nat) :
    ∃ mark later, tower (budget + 1) = .mark mark :: later ∧ mark ≠ "]" := by
  cases budget with
  | zero => exact ⟨_, _, rfl, by decide⟩
  | succ budget => exact ⟨_, _, rfl, by decide⟩

/-- A list of one expression. -/
theorem makes_parsePrimary_array {budget : Nat} {inner : List TokenKind} {height : Nat}
    (opening : ∃ mark later, inner = .mark mark :: later ∧ mark ≠ "]")
    (item : ∀ tokens rest, Front inner tokens rest → Closes rest →
      Makes height rest (parseExpr budget tokens))
    {tokens rest : List Token} (front : Front ([.mark "["] ++ inner ++ [.mark "]"]) tokens rest) :
    Makes (height + 1) rest (parsePrimary (fun tokens => parseExpr budget tokens) tokens) := by
  obtain ⟨behind, left, closing, after, rfl, rfl⟩ := front_append.mp front
  obtain ⟨first, ⟨bracket, word, rfl, rfl⟩, content⟩ := front_append.mp left
  have closes : Closes (⟨.mark "]", closing⟩ :: after) :=
    closes_plain closing after (by decide) (by decide)
  obtain ⟨expr, same, found⟩ := item word _ content closes
  obtain ⟨mark, later, begins, other⟩ := opening
  rw [begins] at content
  obtain ⟨span, more, rfl, _⟩ := content
  have notClosed : skipMark? "]" (⟨.mark mark, span⟩ :: more) = none := if_neg other
  refine ⟨.array [expr], ?_, ?_⟩
  · show (parseItems (fun tokens => parseExpr budget tokens) "]" (more.length + 1)
      (⟨.mark mark, span⟩ :: more) >>= fun found => .ok (Expr.array found.1, found.2)) = _
    rw [parseItems, notClosed]
    simp only
    rw [same]
    rfl
  · show max expr.height 0 + 1 = _
    rw [found, Nat.max_zero]

/-- The operand of a tower, a list with the tower inside and with accesses behind it. -/
theorem makes_parseUnary_tower {budget : Nat}
    (inner : ∀ tokens rest, Front (tower (budget + 1)) tokens rest → Closes rest →
      Makes (tallest (budget + 1)) rest (parseExpr (budget + 1) tokens))
    {tokens rest : List Token}
    (front : Front ([.mark "["] ++ tower (budget + 1) ++ [.mark "]"] ++
      times (budget + 1) [.mark ".", .name "a"]) tokens rest)
    (stop : accessAt? rest = none) :
    Makes (tallest (budget + 1) + 1 + (budget + 1)) rest (parseUnary (budget + 1) tokens) := by
  obtain ⟨middle, list, accesses⟩ := front_append.mp front
  obtain ⟨target, sameTarget, heightTarget⟩ :=
    makes_parsePrimary_array (exists_tower_eq budget) inner list
  obtain ⟨expr, same, height⟩ :=
    makes_parseAccesses (Nat.le_refl (budget + 1)) target accesses stop
  obtain ⟨_, ⟨bracket, word, rfl, _⟩, _⟩ := front_append.mp (front_append.mp list).choose_spec.1
  refine ⟨expr, ?_, ?_⟩
  · rw [parseUnary]
    show parseOperand (budget + 1) _ = _
    rw [parseOperand, sameTarget]
    exact same
  · rw [height, heightTarget]

/-- A conditional with a letter for each of its branches. -/
theorem makes_parseExpr_conditional {budget height : Nat} (positive : 0 < height)
    {test : List TokenKind}
    (makes : ∀ tokens rest, Front test tokens rest → Stops 0 rest →
      Makes height rest (parseLevel (budget + 1) 0 tokens))
    {tokens rest : List Token}
    (front : Front (test ++ [.mark "?", .name "a", .mark ":", .name "a"]) tokens rest)
    (closes : Closes rest) : Makes (height + 1) rest (parseExpr (budget + 2) tokens) := by
  obtain ⟨_, first, question, _, rfl, consequent, _, rfl, colon, _, rfl, alternate, behind, rfl,
    last⟩ := front_append.mp front
  subst last
  have ends := stops_plain question (⟨.name "a", consequent⟩ :: ⟨.mark ":", colon⟩ ::
    ⟨.name "a", alternate⟩ :: behind) (by decide : "?" ∈ _)
  obtain ⟨left, sameLeft, heightLeft⟩ := makes _ _ first ends
  have colonCloses : Closes (⟨.mark ":", colon⟩ :: ⟨.name "a", alternate⟩ :: behind) :=
    closes_plain colon _ (by decide) (by decide)
  have second := parseExpr_letter budget ⟨consequent, _, rfl, rfl⟩ colonCloses
  have third := parseExpr_letter budget ⟨alternate, _, rfl, rfl⟩ closes
  refine ⟨.conditional left (.name "a") (.name "a"), ?_, ?_⟩
  · rw [parseExpr, parseConditional, sameLeft]
    show (parseExpr (budget + 1) _ >>= fun consequent => expectMark ":" consequent.2 >>=
      fun tokens => parseExpr (budget + 1) tokens >>= fun alternate =>
        .ok (Expr.conditional left consequent.1 alternate.1, alternate.2)) = _
    rw [second]
    show (parseExpr (budget + 1) _ >>= fun alternate =>
      .ok (Expr.conditional left (.name "a") alternate.1, alternate.2)) = _
    rw [third]
    rfl
  · show max left.height (max 1 1) + 1 = height + 1
    omega

/-- **What the parser makes of a tower.** -/
theorem makes_tower (budget : Nat) {tokens rest : List Token}
    (front : Front (tower (budget + 1)) tokens rest) (closes : Closes rest) :
    Makes (tallest (budget + 1)) rest (parseExpr (budget + 1) tokens) := by
  induction budget generalizing tokens rest with
  | zero =>
    -- With no budget left there are no chains, so that only the object is read.
    have object : ∀ tokens rest, Front (tower 1) tokens rest → accessAt? rest = none →
        Makes 2 rest (parseUnary 0 tokens) := by
      rintro _ rest ⟨_, _, rfl, _, _, rfl, _, _, rfl, rfl⟩ stop
      refine ⟨.object [("a", .name "a")], ?_, rfl⟩
      rw [parseUnary]
      show parseOperand 0 _ = _
      rw [parseOperand]
      exact parseAccesses_stop 0 _ stop
    have whole : Front (tower 1 ++ chains 0 levelCount) tokens rest := front
    obtain ⟨expr, same, height⟩ := makes_parseLevel object (Nat.le_refl levelCount) whole closes.1
    rw [Nat.sub_self] at same
    exact ⟨expr, parseExpr_closes same closes, height⟩
  | succ budget ih =>
    have next : tallest (budget + 2) =
        tallest (budget + 1) + 1 + (budget + 1) + levelCount * (budget + 1) + 1 := by
      show tallest (budget + 1) + (levelCount + 1) * (budget + 1) + 2 = _
      unfold levelCount
      omega
    rw [next]
    refine makes_parseExpr_conditional (Nat.lt_of_lt_of_le (Nat.succ_pos budget) ?_)
      (fun tokens rest first ends => ?_) front closes
    · omega
    · have test := makes_parseLevel (fun _ _ => makes_parseUnary_tower fun _ _ => ih)
        (Nat.le_refl levelCount) first ends
      rwa [Nat.sub_self] at test

/-! ### Texts -/

theorem isWord_times (count : Nat) {kinds : List TokenKind}
    (words : ∀ kind ∈ kinds, kind.IsWord) : ∀ kind ∈ times count kinds, kind.IsWord := by
  intro kind member
  obtain ⟨list, inside, found⟩ := List.mem_flatten.mp member
  rw [List.eq_of_mem_replicate inside] at found
  exact words kind found

/-- A mark and a letter are words. -/
theorem isWord_mark_letter (mark : String) (listed : mark ∈ punctuators) :
    ∀ kind ∈ [TokenKind.mark mark, .name "a"], kind.IsWord :=
  List.forall_mem_cons.mpr ⟨isWord_mark listed, List.forall_mem_singleton.mpr isWord_letter⟩

theorem isWord_chains (budget count : Nat) : ∀ kind ∈ chains budget count, kind.IsWord := by
  have listed : ∀ level, levelMark level ∈ punctuators := by
    intro level
    unfold levelMark
    split <;> decide
  induction count with
  | zero => exact fun _ member => by cases member
  | succ count ih =>
    exact List.forall_mem_append.mpr ⟨ih, isWord_times budget (isWord_mark_letter _ (listed _))⟩

theorem isWord_tower (budget : Nat) : ∀ kind ∈ tower budget, kind.IsWord := by
  have mark := fun (mark : String) (listed : mark ∈ punctuators) =>
    List.forall_mem_singleton.mpr (isWord_mark listed)
  match budget with
  | 0 => exact fun _ member => by cases member
  | 1 =>
    exact List.forall_mem_cons.mpr ⟨isWord_mark (by decide),
      List.forall_mem_cons.mpr ⟨isWord_letter, mark _ (by decide)⟩⟩
  | budget + 2 =>
    have brackets := List.forall_mem_append.mpr ⟨List.forall_mem_append.mpr
      ⟨mark "[" (by decide), isWord_tower (budget + 1)⟩, mark "]" (by decide)⟩
    have accesses := isWord_times (budget + 1) (isWord_mark_letter "." (by decide))
    have rest := List.forall_mem_append.mpr
      ⟨isWord_mark_letter "?" (by decide), isWord_mark_letter ":" (by decide)⟩
    exact List.forall_mem_append.mpr ⟨List.forall_mem_append.mpr
      ⟨List.forall_mem_append.mpr ⟨brackets, accesses⟩, isWord_chains _ _⟩, rest⟩

/-- A text of words that make an expression is that expression. -/
theorem parse_spelling {kinds : List TokenKind} {height : Nat}
    (words : ∀ kind ∈ kinds, kind.IsWord)
    (makes : ∀ tokens rest, Front kinds tokens rest → Closes rest →
      Makes height rest (parseExpr depthLimit tokens)) :
    ∃ expr, parse (String.ofList (spelling kinds)) = .ok expr ∧ expr.height = height := by
  obtain ⟨tokens, stop, read, front⟩ := tokenize_spelling words
  obtain ⟨expr, same, found⟩ := makes tokens _ front (closes_stop stop)
  refine ⟨expr, ?_, found⟩
  unfold parse
  simp only [read, ok_bind, same]
  rfl

/-- **The greatest height of an expression** that the parser accepts, with every bound on it. The
limit on nesting is no such bound. -/
theorem height_le_iff (bound : Nat) :
    (∀ source expr, parse source = .ok expr → expr.height ≤ bound) ↔
      2 * depthLimit * (2 * depthLimit - 1) ≤ bound := by
  rw [← tallest_eq]
  constructor
  · intro holds
    obtain ⟨expr, parsed, height⟩ :=
      parse_spelling (isWord_tower depthLimit) fun tokens rest => makes_tower 127
    rw [show tallest depthLimit = expr.height from height.symm]
    exact holds _ expr parsed
  · intro le source expr parsed
    exact Nat.le_trans (height_le_tallest parsed) le

/-- As many accesses as the limit allows, and a sum on top of them. -/
def accessesAndSum : String :=
  "a " ++ String.join (List.replicate 127 ". a ") ++ "+ a "

/-- What stands in front of an operator has been parsed before the operator is counted. -/
theorem exists_parse_accessesAndSum :
    ∃ expr, parse accessesAndSum = .ok expr ∧ expr.height = 129 ∧ depthLimit < expr.height := by
  have text : accessesAndSum = String.ofList (spelling
      ([.name "a"] ++ times 127 [.mark ".", .name "a"] ++ times 1 [.mark "+", .name "a"])) := by
    decide +kernel
  have words : ∀ kind ∈ [.name "a"] ++ times 127 [.mark ".", .name "a"] ++
      times 1 [.mark "+", .name "a"], kind.IsWord :=
    List.forall_mem_append.mpr ⟨List.forall_mem_append.mpr
      ⟨List.forall_mem_singleton.mpr isWord_letter,
        isWord_times 127 (isWord_mark_letter "." (by decide))⟩,
      isWord_times 1 (isWord_mark_letter "+" (by decide))⟩
  obtain ⟨expr, parsed, height⟩ : ∃ expr, parse accessesAndSum = .ok expr ∧ expr.height = 129 := by
    rw [text]
    refine parse_spelling words fun tokens rest front closes => ?_
    obtain ⟨middle, operand, sum⟩ := front_append.mp front
    obtain ⟨behind, letter, accesses⟩ := front_append.mp operand
    have ends : Stops 6 middle := by
      obtain ⟨span, after, rfl, _⟩ := sum
      exact stops_levelMark (by decide : 5 < levelCount) span after
    obtain ⟨target, sameTarget, heightTarget⟩ :=
      makes_parseAccesses (Nat.le_refl 127) (.name "a") accesses ends.1
    obtain ⟨expr, same, height⟩ := makes_parseChain (by decide : 1 ≤ 127)
      (by decide : 5 < levelCount) target sum (closes.1.mono (Nat.zero_le 5))
    rw [← parseUnary_letter 127 letter] at sameTarget
    have left := parseLevel_operand sameTarget (by decide : 6 ≤ levelCount) ends
    have whole : parseLevel 127 5 tokens = .ok (expr, rest) := by
      rw [parseLevel, if_pos (by decide), left]
      exact same
    refine ⟨expr, ?_, ?_⟩
    · exact parseExpr_closes (parseLevel_pass whole (Nat.zero_le 5) (by decide) closes.1) closes
    · rw [height, heightTarget]
      rfl
  exact ⟨expr, parsed, height, by rw [height]; decide⟩

end PromptMarkup.Expr
