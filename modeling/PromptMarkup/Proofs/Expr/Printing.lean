/-
**Reading what is printed.**

The text of an expression is read as that expression, unless it nests too deeply.

* `reaches_parseItems`, `isItem_field`: items with commas between them;
* `isRead_literal`, `isRead_name`, `isRead_array`, `isRead_object`: operands on their own;
* `isRead_member`, `isRead_index`, `isRead_call`: accesses;
* `isRead_kinds`: the tokens of an expression are read as it;
* `areWords_kinds`: they are words;
* `parse_printed`: the text of an expression is read as it.
-/

import Mathlib.Data.List.Forall2
import PromptMarkup.Proofs.Expr.Ranks

namespace PromptMarkup.Expr

/-! ### Lists -/

/-- The marks that close a list. -/
def closingMarks : List String := [")", "]", "\x7d"]

/-- The token is a mark that closes a list. -/
def isClosing : TokenKind → Bool
  | .mark text => closingMarks.contains text
  | _ => false

/-- The first token closes no list. -/
def Opens (kinds : List TokenKind) : Prop :=
  ∃ first rest, kinds = first :: rest ∧ isClosing first = false

/-- A piece is read as an item of a list. -/
def IsItem {α : Type} (parser : Nat → Reader α) (piece : List TokenKind) (value : α) : Prop :=
  Opens piece ∧ Reads 1 parser Closes piece value

theorem Opens.notClosed {kinds : List TokenKind} (opens : Opens kinds) {closing : String}
    (listed : closing ∈ closingMarks) {tokens rest : List Token}
    (front : Front kinds tokens rest) : skipMark? closing tokens = none := by
  obtain ⟨first, others, rfl, other⟩ := opens
  obtain ⟨span, after, rfl, _⟩ := front
  unfold skipMark?
  split
  next text _ _ same =>
    have kind : first = .mark text := congrArg Token.kind (List.cons.inj same).1
    rw [kind] at other
    refine if_neg ?_
    rintro rfl
    exact Bool.false_ne_true (other.symm.trans (List.contains_iff_mem.mpr listed))
  next => rfl

/-- **The items of a list.** -/
theorem reaches_parseItems {α : Type} {parser : Nat → Reader α} {pieces : List (List TokenKind)}
    {values : List α} (items : List.Forall₂ (IsItem parser) pieces values) {closing : String}
    (listed : closing ∈ closingMarks) (budget : Nat) {fuel : Nat} {tokens rest : List Token}
    (enough : tokens.length ≤ fuel)
    (front : Front ([.mark ","].intercalate pieces ++ [.mark closing]) tokens rest) :
    Reaches (([.mark ","].intercalate pieces : List TokenKind).length < budget)
      (parseItems (parser budget) closing fuel tokens) (.ok (values, rest)) := by
  have differs : ∀ mark ∈ closingMarks, mark ∈ plainMarks ∧ mark ≠ "?" ∧ mark ≠ "," := by decide
  obtain ⟨plain, noQuestion, noComma⟩ := differs closing listed
  induction items generalizing fuel tokens with
  | nil =>
    obtain ⟨span, after, rfl, rfl⟩ := front
    rw [List.length_cons] at enough
    obtain ⟨fuel, rfl⟩ := Nat.exists_eq_succ_of_ne_zero (n := fuel) (by omega)
    rw [parseItems, skipMark?_mark]
    exact .refl _
  | @cons piece value pieces values item others ih =>
    have length := length_of_front front
    rw [List.length_append, List.length_singleton] at length
    obtain ⟨fuel, rfl⟩ := Nat.exists_eq_succ_of_ne_zero (n := fuel) (by omega)
    cases others with
    | nil =>
      rw [List.intercalate_singleton] at front
      obtain ⟨_, inside, span, after, rfl, rfl⟩ := front_append.mp front
      have closes := closes_plain span after plain noQuestion
      rw [parseItems, item.1.notClosed listed inside]
      rw [List.intercalate_singleton]
      refine .bind (item.2 budget tokens _ inside closes) ?_
      have noMore : skipMark? "," (⟨.mark closing, span⟩ :: after) = none := if_neg noComma
      simp only [noMore, expectMark_mark]
      exact .refl _
    | cons second others =>
      rw [List.intercalate_cons_cons, List.append_assoc, List.append_assoc] at front
      obtain ⟨_, inside, span, after, rfl, later⟩ := front_append.mp front
      have closes := closes_plain span after (by decide : "," ∈ plainMarks) (by decide)
      have shorter := length_of_front inside
      rw [List.length_cons] at shorter
      rw [parseItems, item.1.notClosed listed inside]
      rw [List.intercalate_cons_cons, List.length_append, List.length_append]
      refine .bind ((item.2 budget tokens _ inside closes).mono (by omega)) ?_
      exact .bind ((ih (by omega) later).mono (by omega)) (.refl _)

theorem Opens.append {kinds : List TokenKind} (opens : Opens kinds) (more : List TokenKind) :
    Opens (kinds ++ more) := by
  obtain ⟨first, rest, rfl, other⟩ := opens
  exact ⟨first, rest ++ more, rfl, other⟩

theorem Opens.wrap {kinds : List TokenKind} (opens : Opens kinds) (least rank : Nat) :
    Opens (wrap least rank kinds) := by
  unfold Expr.wrap
  split
  next => exact ⟨_, _, rfl, by decide⟩
  next => exact opens

/-- No expression begins with a mark that closes a list. -/
theorem opens_kinds : ∀ expr : Expr, Opens expr.kinds
  | .literal value => ⟨_, [], rfl, by
      cases value with
      | bool value => cases value <;> rfl
      | null => rfl
      | number value => rfl
      | string value => rfl⟩
  | .array _ => ⟨_, _, rfl, by decide⟩
  | .object _ => ⟨_, _, rfl, by decide⟩
  | .name _ => ⟨_, [], rfl, rfl⟩
  | .member target _ _ => ((opens_kinds target).wrap _ _).append _
  | .index target _ _ => ((((opens_kinds target).wrap _ _).append _).append _).append _
  | .call callee _ _ => (((opens_kinds callee).wrap _ _).append _).append _
  | .unary op _ => ⟨_, _, rfl, by cases op <;> decide⟩
  | .binary _ left _ => ((opens_kinds left).wrap _ _).append _
  | .logical _ left _ => ((opens_kinds left).wrap _ _).append _
  | .conditional test _ _ => (((opens_kinds test).wrap _ _).append _).append _

/-- The parser of the fields of an object. -/
def fieldParser (budget : Nat) : Reader (String × Expr) :=
  parseField fun tokens => parseExpr budget tokens

/-- **A field of an object.** -/
theorem isItem_field (key : String) {value : Expr} {kinds : List TokenKind}
    (reads : Reads 1 parseExpr Closes kinds value) :
    IsItem fieldParser (keyKind key :: .mark ":" :: kinds) (key, value) := by
  constructor
  · refine ⟨_, _, rfl, ?_⟩
    unfold keyKind
    split <;> rfl
  · rintro budget _ rest ⟨first, _, rfl, colon, after, rfl, front⟩ closes
    have found : parseKey (⟨keyKind key, first⟩ :: ⟨.mark ":", colon⟩ :: after) =
        .ok (key, ⟨.mark ":", colon⟩ :: after) := by
      unfold keyKind
      split <;> rfl
    unfold fieldParser parseField
    refine .bind (.of_eq found) ?_
    simp only [skipMark?_mark, List.length_cons]
    exact .bind ((reads budget after rest front closes).mono (by omega)) (.refl _)

/-! ### Primaries -/

/-- Inside a list there is room if there is some for all of it. -/
theorem room_listed (opening : String) (pieces : List (List TokenKind)) (closing : String)
    {budget : Nat} (room : (listed opening pieces closing).length ≤ budget) :
    ([.mark ","].intercalate pieces : List TokenKind).length < budget := by
  unfold listed at room
  simp only [List.length_append, List.length_cons, List.length_nil] at room
  omega

theorem isRead_literal {value : Literal} (printable : (Expr.literal value).isPrintable = true) :
    IsRead [value.kind] (.literal value) operandRank := by
  refine isRead_primary ?_
  rintro budget _ rest ⟨span, _, rfl, rfl⟩
  cases value with
  | number value => cases printable
  | bool value => cases value <;> exact ⟨rfl, .refl _⟩
  | null => exact ⟨rfl, .refl _⟩
  | string value => exact ⟨rfl, .refl _⟩

theorem isRead_name {text : String} (printable : (Expr.name text).isPrintable = true) :
    IsRead [.name text] (.name text) operandRank := by
  have free : reservedWords.contains text = false :=
    (Bool.not_eq_true' _).mp ((Bool.and_eq_true _ _).mp printable).2
  simp only [reservedWords, List.contains_cons, Bool.or_eq_false_iff, beq_eq_false_iff_ne] at free
  obtain ⟨noTrue, noFalse, noNull, noUndefined, noTypeof, _⟩ := free
  have stays : nameExpr text = .name text := by
    unfold nameExpr
    split <;> first | contradiction | rfl
  refine isRead_primary ?_
  rintro budget _ rest ⟨span, _, rfl, rfl⟩
  constructor
  · unfold unaryAt?
    split <;> simp_all
  · exact .of_eq (congrArg (fun expr => Except.ok (expr, _)) stays)

theorem isRead_array {pieces : List (List TokenKind)} {items : List Expr}
    (read : List.Forall₂ (IsItem parseExpr) pieces items) :
    IsRead (listed "[" pieces "]") (.array items) operandRank := by
  refine isRead_primary ?_
  rintro budget _ rest ⟨span, inside, rfl, front⟩
  have items := reaches_parseItems read (by decide : "]" ∈ closingMarks) budget (Nat.le_refl _) front
  exact ⟨rfl, .bind (items.mono (room_listed "[" pieces "]")) (.refl _)⟩

theorem isRead_object {pieces : List (List TokenKind)} {fields : List (String × Expr)}
    (read : List.Forall₂ (IsItem fieldParser) pieces fields) :
    IsRead (listed "\x7b" pieces "\x7d") (.object fields) operandRank := by
  refine isRead_primary ?_
  rintro budget _ rest ⟨span, inside, rfl, front⟩
  have fields :=
    reaches_parseItems read (by decide : "\x7d" ∈ closingMarks) budget (Nat.le_refl _) front
  exact ⟨rfl, .bind (fields.mono (room_listed "\x7b" pieces "\x7d")) (.refl _)⟩

/-! ### Accesses -/

section Accesses

variable {target : Expr} {kinds : List TokenKind} {rank : Nat}

theorem isRead_member (read : IsRead kinds target rank) (property : String) (optional : Bool) :
    IsRead (wrap operandRank rank kinds ++
        [.mark (if optional then "?." else "."), .name property])
      (.member target property optional) operandRank := by
  refine isRead_access read ?_
  rintro budget _ _ ⟨mark, _, rfl, name, rest, rfl, rfl⟩
  cases optional with
  | false => exact ⟨.member, _, rfl, .refl _⟩
  | true => exact ⟨.optional, _, rfl, .refl _⟩

theorem isRead_index (read : IsRead kinds target rank) {key : Expr} {keyKinds : List TokenKind}
    (readKey : Reads 1 parseExpr Closes keyKinds key) (optional : Bool) :
    IsRead (wrap operandRank rank kinds ++ optionalMark optional ++
        .mark "[" :: keyKinds ++ [.mark "]"])
      (.index target key optional) operandRank := by
  rw [List.append_assoc, List.append_assoc]
  refine isRead_access read fun budget tokens rest front => ?_
  obtain ⟨_, optionally, opening, inside, rfl, front⟩ := front_append.mp front
  obtain ⟨_, content, closing, after, rfl, rfl⟩ := front_append.mp front
  have closes := closes_plain closing after (by decide : "]" ∈ plainMarks) (by decide)
  have index : Reaches ((optionalMark optional ++
        (TokenKind.mark "[" :: keyKinds ++ [TokenKind.mark "]"])).length ≤ budget + 1)
      (parseExpr budget inside >>= fun found => expectMark "]" found.2 >>=
        fun rest => .ok (Expr.index target found.1 optional, rest))
      (.ok (.index target key optional, after)) := by
    refine .bind ((readKey budget inside _ content closes).mono fun room => ?_) ?_
    · simp only [List.length_append, List.length_cons, List.length_nil] at room
      omega
    · exact .bind (.of_eq (expectMark_mark "]" closing after)) (.refl _)
  cases optional with
  | false =>
    obtain rfl := optionally
    exact ⟨.index, _, rfl, index⟩
  | true =>
    obtain ⟨mark, _, rfl, rfl⟩ := optionally
    exact ⟨.optional, _, rfl, index⟩

theorem isRead_call (read : IsRead kinds target rank) {pieces : List (List TokenKind)}
    {args : List Expr} (readArgs : List.Forall₂ (IsItem parseExpr) pieces args)
    (optional : Bool) :
    IsRead (wrap operandRank rank kinds ++ optionalMark optional ++ listed "(" pieces ")")
      (.call target args optional) operandRank := by
  rw [List.append_assoc]
  refine isRead_access read fun budget tokens rest front => ?_
  obtain ⟨_, optionally, opening, inside, rfl, front⟩ := front_append.mp front
  have call : Reaches ((optionalMark optional ++ listed "(" pieces ")").length ≤ budget + 1)
      (parseItems (fun tokens => parseExpr budget tokens) ")" inside.length inside >>=
        fun found => .ok (Expr.call target found.1 optional, found.2))
      (.ok (.call target args optional, rest)) := by
    have items := reaches_parseItems readArgs (by decide : ")" ∈ closingMarks) budget
      (Nat.le_refl _) front
    refine .bind (items.mono fun room => ?_) (.refl _)
    unfold listed at room
    simp only [List.length_append, List.length_cons, List.length_nil] at room
    omega
  cases optional with
  | false =>
    obtain rfl := optionally
    exact ⟨.call, _, rfl, call⟩
  | true =>
    obtain ⟨mark, _, rfl, rfl⟩ := optionally
    exact ⟨.optional, _, rfl, call⟩

end Accesses

/-! ### Expressions -/

mutual

/-- **The tokens of an expression are read as it**, as its rank asks for. -/
theorem isRead_kinds : ∀ expr : Expr, expr.isPrintable = true →
    IsRead expr.kinds expr expr.rank
  | .literal _, printable => isRead_literal printable
  | .name _, printable => isRead_name printable
  | .array items, printable => isRead_array (areItems_kinds items printable)
  | .object fields, printable => isRead_object (areItems_fields fields printable)
  | .member target property optional, printable =>
    isRead_member (isRead_kinds target (Bool.and_eq_true_iff.mp printable).1) property optional
  | .index target key optional, printable =>
    have ⟨left, right⟩ := Bool.and_eq_true_iff.mp printable
    isRead_index (isRead_kinds target left) (isRead_kinds key right).readsExpr optional
  | .call callee args optional, printable =>
    have ⟨left, right⟩ := Bool.and_eq_true_iff.mp printable
    isRead_call (isRead_kinds callee left) (areItems_kinds args right) optional
  | .unary op operand, printable => isRead_unary op (isRead_kinds operand printable)
  | .binary op left right, printable =>
    have ⟨first, second⟩ := Bool.and_eq_true_iff.mp printable
    isRead_joined (.binary op) (isRead_kinds left first) (isRead_kinds right second)
  | .logical op left right, printable =>
    have ⟨first, second⟩ := Bool.and_eq_true_iff.mp printable
    isRead_joined (.logical op) (isRead_kinds left first) (isRead_kinds right second)
  | .conditional test consequent alternate, printable =>
    have ⟨both, third⟩ := Bool.and_eq_true_iff.mp printable
    have ⟨first, second⟩ := Bool.and_eq_true_iff.mp both
    isRead_conditional (isRead_kinds test first) (isRead_kinds consequent second).readsExpr
      (isRead_kinds alternate third).readsExpr

theorem areItems_kinds : ∀ items : List Expr, arePrintableItems items = true →
    List.Forall₂ (IsItem parseExpr) (kindsOfItems items) items
  | [], _ => .nil
  | item :: rest, printable =>
    have ⟨here, later⟩ := Bool.and_eq_true_iff.mp printable
    .cons ⟨opens_kinds item, (isRead_kinds item here).readsExpr⟩ (areItems_kinds rest later)

theorem areItems_fields : ∀ fields : List (String × Expr), arePrintableFields fields = true →
    List.Forall₂ (IsItem fieldParser) (kindsOfFields fields) fields
  | [], _ => .nil
  | (key, value) :: rest, printable =>
    have ⟨here, later⟩ := Bool.and_eq_true_iff.mp printable
    .cons (isItem_field key (isRead_kinds value here).readsExpr) (areItems_fields rest later)

end

/-! ### Texts -/

/-- Tokens that are words. -/
def AreWords (kinds : List TokenKind) : Prop := ∀ kind ∈ kinds, kind.IsWord

namespace AreWords

variable {first second : List TokenKind}

theorem mark {mark : String} (listed : mark ∈ punctuators) : AreWords [.mark mark] :=
  List.forall_mem_singleton.mpr (isWord_mark listed)

theorem append (left : AreWords first) (right : AreWords second) : AreWords (first ++ second) :=
  List.forall_mem_append.mpr ⟨left, right⟩

theorem wrap (words : AreWords first) (least rank : Nat) : AreWords (wrap least rank first) := by
  unfold Expr.wrap
  split
  next => exact ((mark (by decide)).append words).append (mark (by decide))
  next => exact words

theorem joined (operator : Operator) (left : AreWords first) (right : AreWords second)
    (leftRank rightRank : Nat) : AreWords (joined operator leftRank first rightRank second) := by
  have word : AreWords [operator.kind] := by
    cases operator with
    | binary op =>
      cases op with
      | contains => exact List.forall_mem_singleton.mpr (isWord_name (by decide))
      | _ => exact mark (by decide)
    | logical op => cases op <;> exact mark (by decide)
  exact (left.wrap _ _).append (word.append (right.wrap _ _))

theorem optionalMark (optional : Bool) : AreWords (optionalMark optional) := by
  cases optional with
  | false => exact fun _ member => by cases member
  | true => exact mark (by decide)

theorem listed {opening closing : String} (opens : opening ∈ punctuators)
    (closes : closing ∈ punctuators) {pieces : List (List TokenKind)}
    (words : ∀ piece ∈ pieces, AreWords piece) : AreWords (listed opening pieces closing) := by
  have items : AreWords ([.mark ","].intercalate pieces) := by
    induction pieces with
    | nil => exact fun _ member => by cases member
    | cons piece pieces ih =>
      obtain ⟨here, later⟩ := List.forall_mem_cons.mp words
      cases pieces with
      | nil =>
        rw [List.intercalate_singleton]
        exact here
      | cons next others =>
        rw [List.intercalate_cons_cons]
        exact (here.append (mark (by decide))).append (ih later)
  exact ((mark opens).append items).append (mark closes)

end AreWords

mutual

/-- The tokens of an expression are words. -/
theorem areWords_kinds : ∀ expr : Expr, expr.isPrintable = true → AreWords expr.kinds
  | .literal value, printable => List.forall_mem_singleton.mpr <| by
      cases value with
      | number value => cases printable
      | bool value => cases value <;> exact isWord_name (by decide)
      | null => exact isWord_name (by decide)
      | string value => exact isWord_string value
  | .name _, printable =>
    List.forall_mem_singleton.mpr (isWord_name (Bool.and_eq_true_iff.mp printable).1)
  | .array items, printable =>
    .listed (by decide) (by decide) (areWords_items items printable)
  | .object fields, printable =>
    .listed (by decide) (by decide) (areWords_fields fields printable)
  | .member target _ optional, printable =>
    have ⟨left, right⟩ := Bool.and_eq_true_iff.mp printable
    ((areWords_kinds target left).wrap _ _).append <| List.forall_mem_cons.mpr
      ⟨isWord_mark (by cases optional <;> decide),
        List.forall_mem_singleton.mpr (isWord_name right)⟩
  | .index target key optional, printable =>
    have ⟨left, right⟩ := Bool.and_eq_true_iff.mp printable
    ((((areWords_kinds target left).wrap _ _).append (.optionalMark optional)).append
      ((AreWords.mark (by decide)).append (areWords_kinds key right))).append (.mark (by decide))
  | .call callee args optional, printable =>
    have ⟨left, right⟩ := Bool.and_eq_true_iff.mp printable
    (((areWords_kinds callee left).wrap _ _).append (.optionalMark optional)).append
      (.listed (by decide) (by decide) (areWords_items args right))
  | .unary op operand, printable => by
    have word : AreWords [op.kind] := by
      cases op with
      | typeOf => exact List.forall_mem_singleton.mpr (isWord_name (by decide))
      | _ => exact .mark (by decide)
    exact word.append ((areWords_kinds operand printable).wrap _ _)
  | .binary op left right, printable =>
    have ⟨first, second⟩ := Bool.and_eq_true_iff.mp printable
    .joined (.binary op) (areWords_kinds left first) (areWords_kinds right second) _ _
  | .logical op left right, printable =>
    have ⟨first, second⟩ := Bool.and_eq_true_iff.mp printable
    .joined (.logical op) (areWords_kinds left first) (areWords_kinds right second) _ _
  | .conditional test consequent alternate, printable =>
    have ⟨both, third⟩ := Bool.and_eq_true_iff.mp printable
    have ⟨first, second⟩ := Bool.and_eq_true_iff.mp both
    (((areWords_kinds test first).wrap _ _).append
      ((AreWords.mark (by decide)).append (areWords_kinds consequent second))).append
      ((AreWords.mark (by decide)).append (areWords_kinds alternate third))

theorem areWords_items : ∀ items : List Expr, arePrintableItems items = true →
    ∀ piece ∈ kindsOfItems items, AreWords piece
  | [], _ => fun _ member => by cases member
  | item :: rest, printable =>
    have ⟨here, later⟩ := Bool.and_eq_true_iff.mp printable
    List.forall_mem_cons.mpr ⟨areWords_kinds item here, areWords_items rest later⟩

theorem areWords_fields : ∀ fields : List (String × Expr), arePrintableFields fields = true →
    ∀ piece ∈ kindsOfFields fields, AreWords piece
  | [], _ => fun _ member => by cases member
  | (key, value) :: rest, printable => by
    have ⟨here, later⟩ := Bool.and_eq_true_iff.mp printable
    have word : AreWords [keyKind key] := by
      refine List.forall_mem_singleton.mpr ?_
      unfold keyKind
      split
      next name => exact isWord_name name
      next => exact isWord_string key
    refine List.forall_mem_cons.mpr ⟨?_, areWords_fields rest later⟩
    exact word.append ((AreWords.mark (by decide)).append (areWords_kinds value here))

end

/-- **The text of an expression is read as that expression.** The parser may answer that it nests
too deeply, but only if it has as many tokens as the limit on nesting. -/
theorem parse_printed (expr : Expr) (printable : expr.isPrintable = true) :
    parse expr.print = .ok expr ∨
      depthLimit ≤ expr.kinds.length ∧
        ∃ offset, parse expr.print = .error (.malformed .nestsTooDeeply offset) := by
  obtain ⟨tokens, stop, read, front⟩ :=
    tokensFrom_spaced (areWords_kinds expr printable) (.inl rfl) 0
  rw [List.append_nil] at read
  have text : tokenize expr.print = .ok tokens := by
    unfold tokenize print
    rw [String.toList_ofList, read]
  have whole : Reaches (expr.kinds.length + 1 ≤ depthLimit) (parse expr.print) (.ok expr) := by
    have found := (isRead_kinds expr printable).readsExpr depthLimit tokens _ front
      (closes_stop stop)
    unfold parse
    rw [text]
    exact .bind (.refl (.ok tokens)) (.bind found (.refl _))
  exact whole.imp id fun ⟨short, deep⟩ => ⟨Nat.le_of_not_lt short, deep⟩

/-- A conditional in front of a question mark, a difference behind a difference, and words that are
operators elsewhere as the names of a field and of a member. -/
theorem parse_printed_conditional :
    let expr := Expr.conditional
      (.conditional (.name "a") (.literal (.string "\n")) (.name "b"))
      (.binary .subtract (.name "c") (.binary .subtract (.name "d") (.unary .negate (.name "e"))))
      (.index (.member (.object [("in", .array [])]) "typeof" true) (.name "f") true)
    expr.print =
        "( a ? \"\\n\" : b ) ? c - ( d - - e ) : \x7b in : [ ] \x7d ?. typeof ?. [ f ]" ∧
      expr.isPrintable = true ∧ parse expr.print = .ok expr := by
  intro expr
  have printable : expr.isPrintable = true := by decide
  have few : expr.kinds.length < depthLimit := by decide
  refine ⟨by decide, printable, ?_⟩
  rcases parse_printed expr printable with read | ⟨many, _⟩
  · exact read
  · exact absurd few (Nat.not_lt.mpr many)

end PromptMarkup.Expr
