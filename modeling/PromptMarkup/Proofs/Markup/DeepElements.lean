/-
**Elements that nest too deeply.**

Where `elementDepthLimit` elements are open, another one is passed over up to its close tag and kept
as text. Open tags count up on the way and close tags count down; what closes itself, literal
elements and what has no elements in it leave the count alone. So the count comes back to nothing
behind the tag that closes the element, and nowhere before. Nothing that comes later looks at the
contents that are there already, only at the tags that are open.

* `AreContents`, `IsElement`: the pieces of an element without errors in its tags;
* `skipElement_element`: the pieces that are passed over are those of the element;
* `IsElement.eq_of_append`: at most one element begins at a piece;
* `Cursor`, `Assembly.advance`: where the parser is between two pieces, and how it gets on;
* `Assembly.continued`, `exists_continued`: what is added later depends on the open tags only;
* `pieces_split`: pieces that come first are made of tokens that come first;
* `Meets.recovers`: how the parser gets past an element that nests too deeply;
* `parse_deep`: elements nest no deeper than the limit, and one that would is kept as text.
-/

import PromptMarkup.Proofs.Markup.ElementDepth
import PromptMarkup.Proofs.Markup.RoundTrip

namespace PromptMarkup.Markup

/-! ### Elements as pieces -/

namespace PieceForm

/-- A piece that is all of an element: the tag closes itself, or the element is literal and has its
close tag. -/
def isSingle : PieceForm → Bool
  | opening _ .selfClose => true
  | literal _ _ (some _) => true
  | _ => false

/-- A piece with no element in it. -/
def isLeaf : PieceForm → Bool
  | leaf _ => true
  | _ => false

/-- The open tag of an element that goes on behind it. -/
def openTag? : PieceForm → Option OpenTag
  | opening tag .close => some tag
  | _ => none

def closeTag? : PieceForm → Option CloseTag
  | closing tag => some tag
  | _ => none

end PieceForm

/-- The tags of an element, both terminated, without errors and with one name in letters of either
case. -/
def Encloses (first last : Piece) : Prop :=
  (∃ tag ∈ first.form.openTag?, ∃ close ∈ last.form.closeTag?,
    Text.equalIgnoringCase tag.name close.name) ∧
    hasErrors first.problems = false ∧ hasErrors last.problems = false

instance (first last : Piece) : Decidable (Encloses first last) :=
  inferInstanceAs (Decidable (_ ∧ _))

/-- The pieces between the tags of an element: anything that has no elements in it, and elements
without errors in their tags. -/
inductive AreContents : List Piece → Prop
  | nil : AreContents []
  | leaf {piece : Piece} {rest : List Piece} (form : piece.form.isLeaf)
      (later : AreContents rest) : AreContents (piece :: rest)
  | single {piece : Piece} {rest : List Piece} (form : piece.form.isSingle)
      (clean : hasErrors piece.problems = false) (later : AreContents rest) :
      AreContents (piece :: rest)
  | nested {first last : Piece} {inside rest : List Piece} (tags : Encloses first last)
      (inner : AreContents inside) (later : AreContents rest) :
      AreContents (first :: (inside ++ last :: rest))

/-- The pieces of one element without errors in its tags and in those below it. -/
inductive IsElement : List Piece → Prop
  | single {piece : Piece} (form : piece.form.isSingle)
      (clean : hasErrors piece.problems = false) : IsElement [piece]
  | nested {first last : Piece} {inside : List Piece} (tags : Encloses first last)
      (inner : AreContents inside) : IsElement (first :: (inside ++ [last]))

/-- The source of some pieces. -/
def sourceOf (all : List Piece) : String := String.join (all.map Piece.source)

/-- The problems of pieces that are passed over. -/
def problemsOf (all : List Piece) : List Diagnostic := all.flatMap problemsInside

/-- The offset where some pieces end; `start` when there are none. -/
def stopBehind (start : Nat) (all : List Piece) : Nat :=
  all.getLast?.elim start fun piece => piece.span.stop

/-- The text that some pieces are kept as. -/
def keptText (first : Piece) (rest : List Piece) : TextNode :=
  ⟨sourceOf (first :: rest), ⟨first.span.start, stopBehind first.span.stop rest⟩⟩

theorem sourceOf_append (front back : List Piece) :
    sourceOf (front ++ back) = sourceOf front ++ sourceOf back := by
  simp [sourceOf, String.join_append]

theorem problemsOf_append (front back : List Piece) :
    problemsOf (front ++ back) = problemsOf front ++ problemsOf back := List.flatMap_append

theorem stopBehind_cons (start : Nat) (piece : Piece) (rest : List Piece) :
    stopBehind start (piece :: rest) = stopBehind piece.span.stop rest := by
  unfold stopBehind
  rw [List.getLast?_cons]
  cases rest.getLast? <;> rfl

theorem stopBehind_append (start : Nat) (front back : List Piece) :
    stopBehind start (front ++ back) = stopBehind (stopBehind start front) back := by
  unfold stopBehind
  rw [List.getLast?_append]
  cases back.getLast? <;> rfl

/-! ### What is passed over -/

/-- What is passed over with some pieces in front. -/
def Skipped.behind (skipped : Skipped) (front : List Piece) : Skipped :=
  { skipped with
    source := sourceOf front ++ skipped.source
    problems := problemsOf front ++ skipped.problems }

theorem Skipped.behind_behind (skipped : Skipped) (front back : List Piece) :
    (skipped.behind back).behind front = skipped.behind (front ++ back) := by
  simp [Skipped.behind, sourceOf_append, problemsOf_append, String.append_assoc]

theorem skipElement_cons (count stop : Nat) (piece : Piece) (rest : List Piece) :
    skipElement count stop (piece :: rest) =
      (if openBehind count piece.form = 0 then ⟨"", piece.span.stop, [], rest⟩
        else skipElement (openBehind count piece.form) piece.span.stop rest).behind [piece] := by
  simp [skipElement, Skipped.behind, sourceOf, problemsOf]

theorem openBehind_single {form : PieceForm} (single : form.isSingle) (count : Nat) :
    openBehind count form = count := by
  cases form with
  | opening tag terminator =>
    cases terminator with
    | selfClose => rfl
    | close | missing => exact absurd single Bool.false_ne_true
  | literal tag body closing =>
    cases closing with
    | some close => rfl
    | none => exact absurd single Bool.false_ne_true
  | closing | leaf => exact absurd single Bool.false_ne_true

theorem openBehind_leaf {form : PieceForm} (leaf : form.isLeaf) (count : Nat) :
    openBehind count form = count := by
  cases form with
  | leaf => rfl
  | opening | closing | literal => exact absurd leaf Bool.false_ne_true

/-- The tags of an element count up and down. -/
theorem Encloses.counts {first last : Piece} (tags : Encloses first last) (count : Nat) :
    openBehind count first.form = count + 1 ∧ openBehind count last.form = count - 1 := by
  obtain ⟨⟨tag, opens, close, closes, _⟩, _⟩ := tags
  have up : first.form = .opening tag .close := by
    unfold PieceForm.openTag? at opens
    split at opens
    next same => rw [same, Option.some.inj opens]
    next => cases opens
  have down : last.form = .closing close := by
    unfold PieceForm.closeTag? at closes
    split at closes
    next same => rw [same, Option.some.inj closes]
    next => cases closes
  rw [up, down]
  exact ⟨rfl, rfl⟩

/-- Inside of an element a piece that is all of an element, or none, is passed over alone. -/
theorem skipElement_level {count : Nat} {piece : Piece}
    (level : openBehind (count + 1) piece.form = count + 1) (stop : Nat) (rest : List Piece) :
    skipElement (count + 1) stop (piece :: rest) =
      (skipElement (count + 1) piece.span.stop rest).behind [piece] := by
  rw [skipElement_cons, level, if_neg (Nat.succ_ne_zero count)]

/-- A count of open elements at which some pieces are passed over without an end to it. -/
def PassedAt (count : Nat) (front : List Piece) : Prop :=
  ∀ stop rest, skipElement count stop (front ++ rest) =
    (skipElement count (stopBehind stop front) rest).behind front

/-- **The tags of an element count up and down**, so that the count behind is the one in front. -/
theorem skipElement_enclosed {first last : Piece} {inside : List Piece} (tags : Encloses first last)
    (count stop : Nat) (passed : PassedAt (count + 1) inside) (rest : List Piece) :
    skipElement count stop (first :: (inside ++ last :: rest)) =
      (if count = 0 then ⟨"", last.span.stop, [], rest⟩
        else skipElement count last.span.stop rest).behind (first :: (inside ++ [last])) := by
  have up := (tags.counts count).1
  have down := (tags.counts (count + 1)).2
  rw [Nat.add_sub_cancel] at down
  rw [skipElement_cons, up, if_neg (Nat.succ_ne_zero count), passed, skipElement_cons, down,
    Skipped.behind_behind, Skipped.behind_behind]
  rfl

/-- **Contents are passed over, and the count is what it was.** -/
theorem AreContents.passedAt {inside : List Piece} (contents : AreContents inside) (count : Nat) :
    PassedAt (count + 1) inside := by
  induction contents generalizing count with
  | nil => exact fun stop rest => by simp [Skipped.behind, sourceOf, problemsOf, stopBehind]
  | leaf form _ ih =>
    intro stop rest
    rw [List.cons_append, skipElement_level (openBehind_leaf form _), ih, Skipped.behind_behind,
      stopBehind_cons]
    rfl
  | single form _ _ ih =>
    intro stop rest
    rw [List.cons_append, skipElement_level (openBehind_single form _), ih, Skipped.behind_behind,
      stopBehind_cons]
    rfl
  | @nested first last inside later tags _ _ ihInside ihLater =>
    intro stop rest
    rw [List.cons_append, List.append_assoc, List.cons_append,
      skipElement_enclosed tags _ _ (ihInside (count + 1)), if_neg (Nat.succ_ne_zero count),
      ihLater count, Skipped.behind_behind, stopBehind_cons, stopBehind_append, stopBehind_cons]
    simp

/-- **What is passed over of an element are the pieces of the element**, and nothing behind. -/
theorem skipElement_element {first : Piece} {others : List Piece}
    (element : IsElement (first :: others)) (stop : Nat) (rest : List Piece) :
    skipElement 0 stop (first :: others ++ rest) =
      ⟨(keptText first others).value, (keptText first others).span.stop,
        problemsOf (first :: others), rest⟩ := by
  cases element with
  | single form _ =>
    rw [List.cons_append, skipElement_cons, openBehind_single form, if_pos rfl]
    simp [Skipped.behind, keptText, stopBehind]
  | @nested _ last inside tags inner =>
    rw [List.cons_append, List.append_assoc, List.cons_append, List.nil_append,
      skipElement_enclosed tags 0 stop (inner.passedAt 0), if_pos rfl]
    simp [Skipped.behind, keptText, stopBehind]

/-- **At most one element begins at a piece.** -/
theorem IsElement.eq_of_append {own other rest left : List Piece} (element : IsElement own)
    (again : IsElement other) (same : own ++ rest = other ++ left) : own = other := by
  cases own with
  | nil => cases element
  | cons first others =>
    cases other with
    | nil => cases again
    | cons begin more =>
      have here := congrArg Skipped.rest (skipElement_element element 0 rest)
      have there := congrArg Skipped.rest (skipElement_element again 0 left)
      rw [same] at here
      obtain rfl : rest = left := here.symm.trans there
      exact List.append_cancel_right same

theorem hasErrors_problemsInside {piece : Piece} (clean : hasErrors piece.problems = false) :
    hasErrors (problemsInside piece) = false := by
  unfold problemsInside
  split
  · rfl
  · exact clean

theorem problemsInside_leaf {piece : Piece} (leaf : piece.form.isLeaf) :
    problemsInside piece = [] := by
  obtain ⟨form, problems, source, span⟩ := piece
  cases form with
  | leaf => rfl
  | opening | closing | literal => exact absurd leaf Bool.false_ne_true

/-- There is no error in an element that is passed over. -/
theorem AreContents.hasErrors_problemsOf {inside : List Piece} (contents : AreContents inside) :
    hasErrors (problemsOf inside) = false := by
  have cons : ∀ piece rest, hasErrors (problemsOf (piece :: rest)) =
      (hasErrors (problemsInside piece) || hasErrors (problemsOf rest)) := fun _ _ =>
    hasErrors_append _ _
  induction contents with
  | nil => rfl
  | leaf form _ ih => rw [cons, ih, problemsInside_leaf form]; rfl
  | single _ clean _ ih => rw [cons, ih, hasErrors_problemsInside clean]; rfl
  | nested tags _ _ ihInside ihLater =>
    rw [cons, problemsOf_append, hasErrors_append, cons, ihInside, ihLater,
      hasErrors_problemsInside tags.2.1, hasErrors_problemsInside tags.2.2]
    rfl

theorem IsElement.areContents {all : List Piece} (element : IsElement all) : AreContents all := by
  cases element with
  | single form clean => exact .single form clean .nil
  | nested tags inner => exact .nested tags inner .nil

/-! ### From one piece to the next -/

/-- Where the parser is between two pieces: the problems reported so far, the contents so far, and
the pieces that are left. -/
structure Cursor where
  problems : List Diagnostic
  assembly : Assembly
  ahead : List Piece

/-- What the parser does with a piece, and where it is then: an element that nests too deeply is
passed over, any other piece is added. -/
def Assembly.advance (assembly : Assembly) (piece : Piece) (rest : List Piece) : Cursor :=
  if piece.opensElement ∧ elementDepthLimit ≤ assembly.opened.length then
    let skipped := skipElement 0 piece.span.start (piece :: rest)
    { problems := skipped.problems ++
        [Problem.tooDeep.report ⟨piece.span.start, piece.span.start + 1⟩]
      assembly := assembly.add (.text ⟨skipped.source, ⟨piece.span.start, skipped.stop⟩⟩)
      ahead := skipped.rest }
  else ⟨(assembly.step piece).2, (assembly.step piece).1, rest⟩

/-- The contents of the document that the parser ends with, and all problems. -/
def Cursor.result (cursor : Cursor) : List Content × List Diagnostic :=
  let (contents, problems) := assemble cursor.assembly cursor.ahead
  (contents, cursor.problems ++ problems)

theorem assemble_cons (assembly : Assembly) (piece : Piece) (rest : List Piece) :
    assemble assembly (piece :: rest) = (assembly.advance piece rest).result := by
  rw [assemble, Assembly.advance]
  split
  · simp [Cursor.result]
  · rfl

/-! ### What comes later -/

/-- The open tags whose close tags have not come yet, innermost first. -/
def Assembly.openTags (assembly : Assembly) : List OpenTag := assembly.opened.map OpenElement.tag

/-- What a piece does to an assembly. -/
inductive Move where
  | add (content : Content)
  | enter (element : OpenElement)
  | leave (closing : CloseTag)

def Assembly.move (assembly : Assembly) : Move → Assembly
  | .add content => assembly.add content
  | .enter element => { assembly with opened := element :: assembly.opened }
  | .leave closing => assembly.close (some closing)

namespace Move

/-- Only an open element can be left. -/
def IsPossible (opened : List OpenTag) : Move → Prop
  | leave _ => opened ≠ []
  | _ => True

/-- The tags that are open behind a move. -/
def tagsBehind (opened : List OpenTag) : Move → List OpenTag
  | add _ => opened
  | enter element => element.tag :: opened
  | leave _ => opened.tail

end Move

theorem Assembly.openTags_add (assembly : Assembly) (content : Content) :
    (assembly.add content).openTags = assembly.openTags := by
  obtain ⟨opened, contents⟩ := assembly
  cases opened <;> rfl

theorem Assembly.openTags_move (assembly : Assembly) (move : Move) :
    (assembly.move move).openTags = move.tagsBehind assembly.openTags := by
  cases move with
  | add content => exact assembly.openTags_add content
  | enter element => rfl
  | leave closing =>
    obtain ⟨opened, contents⟩ := assembly
    cases opened with
    | nil => rfl
    | cons innermost outer => exact Assembly.openTags_add ⟨outer, contents⟩ _

/-- What is added for a piece depends on the open tags only. -/
theorem exists_move_step (opened : List OpenTag) (piece : Piece) :
    ∃ move problems, move.IsPossible opened ∧ ∀ assembly : Assembly, assembly.openTags = opened →
      assembly.step piece = (assembly.move move, problems) := by
  obtain ⟨form, problems, text, span⟩ := piece
  unfold Assembly.step
  cases form with
  | leaf content => exact ⟨.add content, problems, trivial, fun _ _ => rfl⟩
  | literal tag body closing => exact ⟨.add _, _, trivial, fun _ _ => rfl⟩
  | opening tag terminator =>
    cases terminator with
    | selfClose => exact ⟨.add _, _, trivial, fun _ _ => rfl⟩
    | missing => exact ⟨.add _, _, trivial, fun _ _ => rfl⟩
    | close => exact ⟨.enter ⟨tag, span.stop, []⟩, problems, trivial, fun _ _ => rfl⟩
  | closing tag =>
    cases opened with
    | nil =>
      refine ⟨.add (.text ⟨text, tag.span⟩),
        problems ++ [(Problem.strayClose tag.name).report tag.span], trivial,
        fun assembly same => ?_⟩
      simp only [List.map_eq_nil_iff.mp same]
      rfl
    | cons innermost outer =>
      have around : ∀ assembly : Assembly, assembly.openTags = innermost :: outer →
          ∃ element more, assembly.opened = element :: more ∧ element.tag = innermost :=
        fun assembly same => by
          obtain ⟨element, more, opened, tag, _⟩ := List.map_eq_cons_iff.mp same
          exact ⟨element, more, opened, tag⟩
      by_cases closes : Text.equalIgnoringCase innermost.name tag.name
      · refine ⟨.leave tag, problems, List.cons_ne_nil _ _, fun assembly same => ?_⟩
        obtain ⟨element, more, opened, rfl⟩ := around assembly same
        simp only [opened, if_pos closes]
        rfl
      · refine ⟨.add (.text ⟨text, tag.span⟩),
          problems ++ [(Problem.mismatchedClose tag.name innermost.name).report tag.span], trivial,
          fun assembly same => ?_⟩
        obtain ⟨element, more, opened, rfl⟩ := around assembly same
        simp only [opened, if_neg closes]
        rfl

/-- **What the parser does with a piece depends on the open tags only.** -/
theorem exists_move (opened : List OpenTag) (piece : Piece) (rest : List Piece) :
    ∃ move problems left, move.IsPossible opened ∧ left.length < (piece :: rest).length ∧
      ∀ assembly : Assembly, assembly.openTags = opened →
        assembly.advance piece rest = ⟨problems, assembly.move move, left⟩ := by
  have depth : ∀ assembly : Assembly, assembly.openTags = opened →
      assembly.opened.length = opened.length := fun assembly same => by
    rw [← same, Assembly.openTags, List.length_map]
  by_cases deep : piece.opensElement ∧ elementDepthLimit ≤ opened.length
  · let skipped := skipElement 0 piece.span.start (piece :: rest)
    refine ⟨.add (.text ⟨skipped.source, ⟨piece.span.start, skipped.stop⟩⟩),
      skipped.problems ++ [Problem.tooDeep.report ⟨piece.span.start, piece.span.start + 1⟩],
      skipped.rest, trivial, skipElement_length_lt 0 piece.span.start piece rest,
      fun assembly same => ?_⟩
    rw [Assembly.advance, depth assembly same, if_pos deep]
    rfl
  · obtain ⟨move, problems, possible, step⟩ := exists_move_step opened piece
    refine ⟨move, problems, rest, possible, Nat.lt_succ_self _, fun assembly same => ?_⟩
    rw [Assembly.advance, depth assembly same, if_neg deep, step assembly same]

/-- The contents of a document once every open element has got more contents and has been closed,
with a close tag or at the end of the source, innermost first, and the document has got its last
contents. -/
def Assembly.continued (assembly : Assembly) :
    List (List Content × Option CloseTag) → List Content → List Content
  | [], last => (assembly.addAll last).contents.reverse
  | (contents, closing) :: outer, last =>
    ((assembly.addAll contents).close closing).continued outer last

/-- Content that is added comes before all that is added later. -/
theorem exists_continued_add (content : Content)
    (closed : List (List Content × Option CloseTag)) (last : List Content) :
    ∃ more final, more.length = closed.length ∧ ∀ assembly : Assembly,
      (assembly.add content).continued closed last = assembly.continued more final := by
  cases closed with
  | nil => exact ⟨[], content :: last, rfl, fun _ => rfl⟩
  | cons innermost outer =>
    exact ⟨(content :: innermost.1, innermost.2) :: outer, last, rfl, fun _ => rfl⟩

theorem exists_continued_move {move : Move} {opened : List OpenTag}
    (possible : move.IsPossible opened) {closed : List (List Content × Option CloseTag)}
    (size : closed.length = (move.tagsBehind opened).length) (last : List Content) :
    ∃ more final, more.length = opened.length ∧ ∀ assembly : Assembly,
      (assembly.move move).continued closed last = assembly.continued more final := by
  cases move with
  | add content =>
    obtain ⟨more, final, length, same⟩ := exists_continued_add content closed last
    exact ⟨more, final, length.trans size, same⟩
  | leave closing =>
    refine ⟨([], some closing) :: closed, last, ?_, fun _ => rfl⟩
    rw [List.length_cons, size, Move.tagsBehind, List.length_tail]
    exact Nat.sub_add_cancel (List.length_pos_iff.mpr possible)
  | enter element =>
    obtain ⟨⟨contents, closing⟩, outer, rfl⟩ : ∃ innermost outer, closed = innermost :: outer :=
      List.exists_cons_of_length_eq_add_one size
    -- The element is closed with what it gets, and that is added to what is around it.
    let whole : OpenElement := { element with contents := contents.reverse ++ element.contents }
    obtain ⟨more, final, length, same⟩ :=
      exists_continued_add (.element (whole.finish closing)) outer last
    refine ⟨more, final, length.trans (Nat.succ.inj size), fun assembly => ?_⟩
    rw [← same, Assembly.continued]
    show ((Assembly.addAll ⟨element :: assembly.opened, _⟩ contents).close closing).continued
      outer last = _
    rw [Assembly.addAll_opened]
    rfl

theorem finishAll_eq (pending contents : List Content) (opened : List OpenElement) :
    finishAll pending contents opened =
      ((Assembly.addAll ⟨opened, contents⟩ pending.reverse).continued
          (List.replicate opened.length ([], none)) [],
        opened.map fun element =>
          (Problem.neverClosed element.tag.name).report element.tag.nameSpan) := by
  induction opened generalizing pending with
  | nil =>
    rw [finishAll, Assembly.addAll_top, List.reverse_reverse]
    rfl
  | cons innermost outer ih =>
    rw [finishAll, ih, Assembly.addAll_opened, List.reverse_reverse]
    rfl

/-- **What comes later depends on the open tags only**: with the same tags open, the same contents
are added to the same elements, and these are closed with the same close tags. -/
theorem exists_continued {first second : Assembly} (same : first.openTags = second.openTags)
    (all : List Piece) :
    ∃ closed last problems, closed.length = first.openTags.length ∧
      assemble first all = (first.continued closed last, problems) ∧
      assemble second all = (second.continued closed last, problems) := by
  -- The induction is on the number of pieces, as many may be passed over at once.
  induction size : all.length using Nat.strong_induction_on generalizing first second all with
  | _ count ih =>
    cases all with
    | nil =>
      have deep := congrArg List.length same
      simp only [Assembly.openTags, List.length_map] at deep
      refine ⟨List.replicate first.opened.length ([], none), [],
        first.openTags.map fun tag => (Problem.neverClosed tag.name).report tag.nameSpan,
        ?_, ?_, ?_⟩
      · rw [List.length_replicate, Assembly.openTags, List.length_map]
      · rw [assemble, finishAll_eq, Assembly.openTags, List.map_map]
        rfl
      · rw [assemble, finishAll_eq, same, deep, Assembly.openTags, List.map_map]
        rfl
    | cons piece rest =>
      obtain ⟨move, found, ahead, possible, less, does⟩ := exists_move first.openTags piece rest
      have behind : (first.move move).openTags = (second.move move).openTags := by
        rw [Assembly.openTags_move, Assembly.openTags_move, same]
      obtain ⟨closed, last, problems, length, left, right⟩ :=
        ih ahead.length (size ▸ less) behind ahead rfl
      rw [Assembly.openTags_move] at length
      obtain ⟨more, final, length, again⟩ := exists_continued_move possible length last
      refine ⟨more, final, found ++ problems, length, ?_, ?_⟩
      · rw [assemble_cons, does first rfl, Cursor.result, left, again]
      · rw [assemble_cons, does second same.symm, Cursor.result, right, again]

/-! ### Tokens of pieces -/

section Tokens

variable {tags : LiteralTags} {source : String} {start : Nat} {tokens : List Token}

theorem joinTexts_append (front back : List Token) :
    joinTexts (front ++ back) = joinTexts front ++ joinTexts back := by
  simp [joinTexts, String.join_append]

/-- **Pieces that come first are made of tokens that come first**, and those behind of the tokens
behind. -/
theorem pieces_split {front back : List Piece} (run : Run tags source start tokens)
    (same : pieces tags tokens = front ++ back) :
    ∃ own left stop, tokens = own ++ left ∧ pieces tags left = back ∧
      joinTexts own = sourceOf front ∧ Run tags source stop left := by
  induction front generalizing tokens start with
  | nil => exact ⟨[], tokens, start, rfl, same, rfl, run⟩
  | cons piece front ih =>
    cases tokens with
    | nil =>
      rw [pieces] at same
      cases same
    | cons first rest =>
      obtain ⟨rfl, _, tail⟩ := run.uncons
      obtain ⟨_, behind, _⟩ := readPiece_stands run
      have shorter := readPiece_length_le tags first rest
      obtain ⟨taken, whole⟩ := List.suffix_of_suffix_length_le behind.suffix tail.suffix shorter
      have takes : rest.take (rest.length - (readPiece tags first rest).rest.length) = taken := by
        generalize (readPiece tags first rest).rest = left at whole ⊢
        rw [← whole]
        simp
      rw [pieces, takes, List.cons_append] at same
      obtain ⟨here, later⟩ := List.cons.inj same
      obtain ⟨own, left, stop, parts, remains, texts, run⟩ := ih behind later
      refine ⟨first :: taken ++ own, left, stop, ?_, remains, ?_, run⟩
      · rw [← whole, parts]
        simp
      · rw [joinTexts_append, texts, ← here]
        simp [sourceOf]

end Tokens

/-! ### Documents -/

/-- The parser at the next piece; at the end it stays where it is. -/
def Cursor.next (cursor : Cursor) : Cursor :=
  match cursor.ahead with
  | [] => cursor
  | piece :: rest =>
    let next := cursor.assembly.advance piece rest
    { next with problems := cursor.problems ++ next.problems }

/-- The parser in front of all pieces of a source. -/
def Cursor.start (tags : LiteralTags) (source : String) : Cursor :=
  ⟨[], ⟨[], []⟩, pieces tags (tokenize tags source)⟩

/-- The parser comes to a place in a source. -/
def Meets (tags : LiteralTags) (source : String) (cursor : Cursor) : Prop :=
  ∃ count, Cursor.next^[count] (.start tags source) = cursor

theorem Cursor.result_next (cursor : Cursor) : cursor.next.result = cursor.result := by
  obtain ⟨problems, assembly, ahead⟩ := cursor
  cases ahead with
  | nil => rfl
  | cons piece rest => simp [Cursor.next, Cursor.result, assemble_cons, List.append_assoc]

/-- A step takes pieces that come first. -/
theorem Cursor.exists_ahead (cursor : Cursor) :
    ∃ taken, cursor.ahead = taken ++ cursor.next.ahead := by
  obtain ⟨problems, assembly, ahead⟩ := cursor
  cases ahead with
  | nil => exact ⟨[], rfl⟩
  | cons piece rest =>
    simp only [Cursor.next, Assembly.advance]
    split
    · obtain ⟨taken, whole⟩ := skipElement_suffix 0 piece.span.start (piece :: rest)
      exact ⟨taken, whole.symm⟩
    · exact ⟨[piece], rfl⟩

section Documents

variable {tags : LiteralTags} {source : String} {cursor : Cursor}

/-- **Wherever the parser is, it ends with the tree of the source.** -/
theorem Meets.result (meets : Meets tags source cursor) :
    cursor.result = ((parse tags source).root.children, (parse tags source).diagnostics) := by
  obtain ⟨count, rfl⟩ := meets
  induction count with
  | zero => rfl
  | succ count ih => rw [Function.iterate_succ_apply', Cursor.result_next, ih]

/-- **Wherever the parser is, the pieces that are left are those of the last tokens.** -/
theorem Meets.run (meets : Meets tags source cursor) :
    ∃ tokens start, Run tags source start tokens ∧ pieces tags tokens = cursor.ahead := by
  obtain ⟨count, rfl⟩ := meets
  induction count with
  | zero => exact ⟨_, 0, .tokenize tags source, rfl⟩
  | succ count ih =>
    obtain ⟨tokens, start, run, same⟩ := ih
    rw [Function.iterate_succ_apply']
    obtain ⟨taken, whole⟩ := Cursor.exists_ahead (Cursor.next^[count] (.start tags source))
    obtain ⟨_, left, stop, _, behind, _, run⟩ := pieces_split run (same.trans whole)
    exact ⟨left, stop, run, behind⟩

/-- The parser recovers from an element that nests too deeply. -/
structure Cursor.Recovers (tags : LiteralTags) (source : String) (cursor : Cursor) (first : Piece)
    (others rest : List Piece) : Prop where
  /-- The tokens of the element are taken, and no others. -/
  takes : ∃ before own after, tokenize tags source = before ++ own ++ after ∧
    pieces tags (own ++ after) = cursor.ahead ∧ pieces tags after = cursor.next.ahead ∧
    cursor.next.ahead = rest ∧ joinTexts own = (keptText first others).value
  /-- The element becomes one text, which is what the source reads there. -/
  keeps : cursor.next.assembly = cursor.assembly.add (.text (keptText first others))
  reads : (keptText first others).span.Reads source (keptText first others).value
  /-- There is one error for the element. -/
  reports : ∃ found, cursor.next.problems = cursor.problems ++ found ∧
    found.filter Diagnostic.isError =
      [Problem.tooDeep.report ⟨first.span.start, first.span.start + 1⟩]
  /-- What is behind the element is added as it would be without the element. -/
  goesOn : ∃ closed last problems, closed.length = cursor.assembly.openTags.length ∧
    assemble cursor.assembly rest = (cursor.assembly.continued closed last, problems) ∧
    (parse tags source).root.children =
      (cursor.assembly.add (.text (keptText first others))).continued closed last ∧
    (parse tags source).diagnostics = cursor.next.problems ++ problems

theorem IsElement.opensElement {first : Piece} {others : List Piece}
    (element : IsElement (first :: others)) : first.opensElement := by
  obtain ⟨form, problems, source, span⟩ := first
  cases form with
  | opening | literal => rfl
  | closing | leaf =>
    cases element with
    | single single _ => exact absurd single Bool.false_ne_true
    | nested tags _ =>
      obtain ⟨⟨tag, opens, _⟩, _⟩ := tags
      cases opens

/-- At an element that nests too deeply the parser passes over that element. -/
theorem Cursor.next_of_element {first : Piece} {others rest : List Piece}
    (ahead : cursor.ahead = first :: others ++ rest)
    (deep : elementDepthLimit ≤ cursor.assembly.opened.length)
    (element : IsElement (first :: others)) :
    cursor.next =
      { problems := cursor.problems ++ (problemsOf (first :: others) ++
          [Problem.tooDeep.report ⟨first.span.start, first.span.start + 1⟩])
        assembly := cursor.assembly.add (.text (keptText first others))
        ahead := rest } := by
  have skipped := skipElement_element element first.span.start rest
  obtain ⟨problems, assembly, all⟩ := cursor
  simp only at ahead deep
  subst ahead
  rw [List.cons_append] at skipped ⊢
  rw [Cursor.next]
  simp only [Assembly.advance, if_pos (And.intro element.opensElement deep), skipped]
  rfl

/-- **The parser recovers from every element that nests too deeply** and has no errors in its
tags. -/
theorem Meets.recovers (meets : Meets tags source cursor) {first : Piece}
    {others rest : List Piece} (ahead : cursor.ahead = first :: others ++ rest)
    (deep : elementDepthLimit ≤ cursor.assembly.opened.length)
    (element : IsElement (first :: others)) :
    cursor.Recovers tags source first others rest := by
  have next := Cursor.next_of_element ahead deep element
  obtain ⟨tokens, start, run, same⟩ := meets.run
  refine ⟨?_, by rw [next], ?_, ⟨_, by rw [next], ?_⟩, ?_⟩
  · obtain ⟨own, after, _, parts, remains, texts, _⟩ := pieces_split run (same.trans ahead)
    obtain ⟨before, whole⟩ := run.suffix
    refine ⟨before, own, after, ?_, parts ▸ same, ?_, by rw [next], texts⟩
    · rw [← whole, parts, List.append_assoc]
    · rw [remains, next]
  · have placed := pieces_run run
    rw [same, ahead] at placed
    obtain rfl : first.span.start = start := placed.1
    have reads := (skipElement_reads 0 placed).1
    rwa [skipElement_element element] at reads
  · have none : (problemsOf (first :: others)).filter Diagnostic.isError = [] := by
      have clean := element.areContents.hasErrors_problemsOf
      simpa [hasErrors] using clean
    rw [List.filter_append, none]
    rfl
  · have tags := cursor.assembly.openTags_add (.text (keptText first others))
    obtain ⟨closed, last, problems, length, without, behind⟩ := exists_continued tags.symm rest
    have result := (Cursor.result_next cursor).trans meets.result
    rw [Cursor.result, next] at result
    simp only [behind] at result
    obtain ⟨contents, diagnostics⟩ := Prod.mk.inj result
    exact ⟨closed, last, problems, length, without, contents.symm, by rw [next, ← diagnostics]⟩

end Documents

/-- **Elements nest no deeper than the limit, and one that would is recovered from.** No path of the
tree of a source has more than `elementDepthLimit` elements. Wherever the parser meets an element
with so many open, and all tags of it and below it are without errors, terminated and matched, it
takes the tokens of that element and no others, keeps it as one text with its source, reports one
error for it, and goes on behind it as it would without it. -/
theorem parse_deep (tags : LiteralTags) (source : String) :
    (Node.root (parse tags source).root).NestsWithin elementDepthLimit ∧
      ∀ cursor, Meets tags source cursor → ∀ first others rest,
        cursor.ahead = first :: others ++ rest →
        elementDepthLimit ≤ cursor.assembly.opened.length → IsElement (first :: others) →
        cursor.Recovers tags source first others rest :=
  ⟨parse_nests tags source, fun _ meets _ _ _ ahead deep element =>
    meets.recovers ahead deep element⟩

/-- As many open tags as there may be, and in them one element too many. -/
def deepChars : List Char :=
  (List.replicate elementDepthLimit "<p>".toList).flatten ++ "<b><text><b></text></B>".toList

/-- The parser in front of the element that is too many. -/
def deepCursor : Cursor :=
  Cursor.next^[elementDepthLimit]
    ⟨[], ⟨[], []⟩, pieces .standard (Token.place 0 (lexemes .standard .markup deepChars))⟩

theorem meets_deepCursor : Meets .standard (String.ofList deepChars) deepCursor :=
  ⟨elementDepthLimit, by rw [Cursor.start, tokenize, String.toList_ofList, deepCursor]⟩

theorem parse_deep_deepChars :
    ∃ first others, deepCursor.ahead = first :: others ++ [] ∧
      elementDepthLimit ≤ deepCursor.assembly.opened.length ∧ IsElement (first :: others) ∧
      deepCursor.Recovers .standard (String.ofList deepChars) first others [] := by
  have shape : deepCursor.ahead.length = 3 ∧
      elementDepthLimit ≤ deepCursor.assembly.opened.length ∧
      (∀ first ∈ deepCursor.ahead.head?, ∀ last ∈ deepCursor.ahead.getLast?,
        Encloses first last) ∧
      ∀ piece ∈ deepCursor.ahead.tail.head?,
        piece.form.isSingle ∧ hasErrors piece.problems = false := by decide +kernel
  obtain ⟨three, deep, encloses, single⟩ := shape
  obtain ⟨first, inner, last, ahead⟩ := List.length_eq_three.mp three
  rw [ahead] at encloses single
  obtain ⟨form, clean⟩ := single inner rfl
  have element : IsElement (first :: ([inner] ++ [last])) :=
    .nested (encloses first rfl last rfl) (.single form clean .nil)
  exact ⟨first, [inner, last], ahead, deep, element,
    (parse_deep .standard _).2 deepCursor meets_deepCursor _ _ _ ahead deep element⟩

end PromptMarkup.Markup
