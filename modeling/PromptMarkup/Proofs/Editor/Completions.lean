/-
**Completions replace what has been written.**

Whatever an editor completes, it finds a node of the tree under the cursor, takes the source from
the start of a range in that node up to the cursor as what has been written, and offers labels that
go on from there. Nodes are placed in the source, so the range is one of the source and the cursor
is in it.

* `Span.Reads.slice?`: the slice of a source between two of its boundaries;
* `beginsWith_iff`: a text goes on from another one, in letters of either case;
* `Offer`: completions of one range that go on from one text, of each kind;
* `Completion.Replaces`: a completion replaces what has been written in front of the cursor;
* `Node.below_of_mem_descend`: the nodes under a cursor are nodes of the tree;
* `complete_replaces`: so does every completion of a document.
-/

import PromptMarkup.Editor.Completion
import PromptMarkup.Proofs.Markup.TreePlaces

namespace PromptMarkup

open Markup (Node)

/-! ### Slices -/

namespace Text

/-- There is at least one byte in front of the rest of a text. -/
theorem exists_byteLength_cons (first : Char) (rest : List Char) :
    ∃ size, byteLength (first :: rest) = size + 1 ∧ first.utf8Size ≤ size + 1 ∧
      size + 1 - first.utf8Size = byteLength rest := by
  obtain ⟨size, same⟩ : ∃ size, byteLength (first :: rest) = size + 1 :=
    Nat.exists_eq_succ_of_ne_zero (byteLength_pos (List.cons_ne_nil first rest)).ne'
  have parts := byteLength_cons first rest
  exact ⟨size, same, by omega, by omega⟩

theorem dropBytes?_append (before after : List Char) :
    dropBytes? (byteLength before) (before ++ after) = some after := by
  induction before with
  | nil => cases after <;> rfl
  | cons first rest ih =>
    obtain ⟨size, same, fits, left⟩ := exists_byteLength_cons first rest
    rw [same, List.cons_append, dropBytes?, if_pos fits, left, ih]

theorem takeBytes?_append (before after : List Char) :
    takeBytes? (byteLength before) (before ++ after) = some before := by
  induction before with
  | nil => cases after <;> rfl
  | cons first rest ih =>
    obtain ⟨size, same, fits, left⟩ := exists_byteLength_cons first rest
    rw [same, List.cons_append, takeBytes?, if_pos fits, left, ih, Option.map_some]

end Text

/-- What a source reads at a range is its slice there. -/
theorem Span.Reads.slice? {source text : String} {span : Span} (reads : span.Reads source text) :
    Text.slice? source.toList span.start span.stop = some text.toList := by
  obtain ⟨before, after, whole, rfl⟩ := reads
  rw [Text.slice?, if_pos (Nat.le_add_right _ _), whole, List.append_assoc,
    Text.dropBytes?_append, Option.bind_some, Nat.add_sub_cancel_left, Text.takeBytes?_append]

/-- Between two boundaries of characters an analysis slices what its source reads. -/
theorem Analysis.reads_slice {analysis : Analysis} {start stop : Nat}
    (inside : (⟨start, stop⟩ : Span).IsIn analysis.prompt.source) :
    (⟨start, stop⟩ : Span).Reads analysis.prompt.source
      (String.ofList (analysis.slice start stop)) := by
  obtain ⟨text, reads⟩ := inside
  rw [Analysis.slice, reads.slice?, Option.getD_some, String.ofList_toList]
  exact reads

/-! ### Labels -/

/-- **A text goes on from what has been written** when that is the front of it, in letters of either
case. -/
theorem beginsWith_iff {written chars : List Char} :
    beginsWith written chars ↔ written.map Char.toLower <+: chars.map Char.toLower := by
  induction written generalizing chars with
  | nil => simp [beginsWith]
  | cons expected rest ih =>
    cases chars with
    | nil => simp [beginsWith]
    | cons char others => simp [beginsWith, List.cons_prefix_cons, ih]

/-- Completions that all replace one range and go on from one text. -/
def Offer (written : List Char) (range : Span) (completions : List Completion) : Prop :=
  ∀ completion ∈ completions,
    completion.range = range ∧ continuesText written completion.label

section Offers

variable {written : List Char} {range : Span}

theorem Offer.nil : Offer written range [] := List.forall_mem_nil _

theorem offer_completeValue (property : Property) :
    Offer written range (completeValue property written range) := by
  refine List.forall_mem_map.mpr fun value member => ⟨rfl, ?_⟩
  exact (List.mem_filter.mp member).2

theorem Analysis.offer_completeComponent (analysis : Analysis) :
    Offer written range (analysis.completeComponent written range) := by
  refine List.forall_mem_map.mpr fun name member => ⟨rfl, ?_⟩
  exact (List.mem_filter.mp member).2

theorem Analysis.offer_completeCloseTag (nodes : List Node) (offset : Nat) :
    Offer written range (completeCloseTag nodes offset written range) := by
  unfold Analysis.completeCloseTag
  split
  · split
    next continued => exact List.forall_mem_singleton.mpr ⟨rfl, continued⟩
    next => exact .nil
  · exact .nil

/-- What a name of an attribute is completed from: the key that is being written, or nothing. -/
theorem Analysis.offer_completeProperty (analysis : Analysis) (tag : Markup.OpenTag)
    (current : Option Markup.Attribute) (offset : Nat) :
    Offer (current.elim [] fun pair => analysis.slice pair.keySpan.start offset)
      (current.elim ⟨offset, offset⟩ fun pair => pair.keySpan)
      (analysis.completeProperty tag current offset) := by
  unfold Analysis.completeProperty
  split
  · exact .nil
  · refine List.forall_mem_map.mpr fun property member => ?_
    have offered := (List.mem_filter.mp member).2
    rw [Bool.and_eq_true] at offered
    cases current with
    | none => exact ⟨rfl, offered.2⟩
    | some pair => exact ⟨rfl, offered.2⟩

end Offers

/-! ### Completions -/

/-- A completion replaces a range of the source with the cursor in it, and its label goes on from
what the source reads there in front of the cursor. -/
structure Completion.Replaces (source : String) (offset : Nat) (completion : Completion) :
    Prop where
  isIn : completion.range.IsIn source
  start_le : completion.range.start ≤ offset
  le_stop : offset ≤ completion.range.stop
  continued : ∃ written, (⟨completion.range.start, offset⟩ : Span).Reads source written ∧
    written.toList.map Char.toLower <+: completion.label.toList.map Char.toLower

section Replacing

variable {analysis : Analysis} {offset : Nat}

/-- **An offer replaces what has been written** if it goes on from the text between the start of its
range and the cursor. -/
theorem Offer.replaces {source : String} {written : List Char} {range : Span}
    {completions : List Completion} (offer : Offer written range completions)
    (inside : range.IsIn source) (stop : offset ≤ range.stop)
    (reads : (⟨range.start, offset⟩ : Span).Reads source (String.ofList written)) :
    ∀ completion ∈ completions, completion.Replaces source offset := by
  intro completion member
  obtain ⟨rfl, continued⟩ := offer completion member
  refine ⟨inside, reads.start_le_stop, stop, _, reads, ?_⟩
  rw [String.toList_ofList]
  exact beginsWith_iff.mp continued

/-- The text of a node in front of a cursor in it. -/
theorem reads_before {text : String} {span : Span}
    (valid : (⟨offset⟩ : String.Pos.Raw).IsValid analysis.prompt.source)
    (reads : span.Reads analysis.prompt.source text) (touches : span.touches offset) :
    (⟨span.start, offset⟩ : Span).Reads analysis.prompt.source
      (String.ofList (analysis.slice span.start offset)) := by
  simp only [Span.touches, Bool.and_eq_true, decide_eq_true_eq] at touches
  exact Analysis.reads_slice (.of_isValid reads.start_isValid valid touches.1)

/-- An offer that goes on from a text of a node replaces what has been written of that text. -/
theorem Offer.replaces_text {text : String} {span : Span} {completions : List Completion}
    (offer : Offer (analysis.slice span.start offset) span completions)
    (valid : (⟨offset⟩ : String.Pos.Raw).IsValid analysis.prompt.source)
    (reads : span.Reads analysis.prompt.source text) (touches : span.touches offset) :
    ∀ completion ∈ completions, completion.Replaces analysis.prompt.source offset := by
  refine offer.replaces ⟨text, reads⟩ ?_ (reads_before valid reads touches)
  simp only [Span.touches, Bool.and_eq_true, decide_eq_true_eq] at touches
  exact touches.2

theorem eq_append_of_afterLastBracket? {chars after : List Char}
    (found : afterLastBracket? chars = some after) : ∃ before, chars = before ++ '<' :: after := by
  unfold afterLastBracket? Text.cutWhile at found
  simp only at found
  split at found
  · cases found
  next more =>
    obtain rfl := Option.some.inj found
    obtain ⟨first, rest, same⟩ := List.exists_cons_of_ne_nil
      (fun none => more (List.isEmpty_iff.mpr none))
    have mark : first = '<' := by
      have stops := List.head?_dropWhile_not (p := fun char : Char => decide (char ≠ '<'))
        chars.reverse
      rw [same] at stops
      simpa using stops
    subst mark
    refine ⟨rest.reverse, ?_⟩
    have whole := List.takeWhile_append_dropWhile (p := fun char : Char => decide (char ≠ '<'))
      (l := chars.reverse)
    rw [same] at whole
    simpa using (congrArg List.reverse whole).symm

/-- **A tag that is only begun is completed** from its name, as far as that has been written behind
the last bracket of the text. -/
theorem Analysis.completeText_replaces {start : Nat} (nodes : List Node)
    (inside : (⟨start, offset⟩ : Span).IsIn analysis.prompt.source) :
    ∀ completion ∈ analysis.completeText nodes start offset,
      completion.Replaces analysis.prompt.source offset := by
  unfold Analysis.completeText
  split
  · exact List.forall_mem_nil _
  next after found =>
    obtain ⟨before, whole⟩ := eq_append_of_afterLastBracket? found
    have reads := Analysis.reads_slice inside
    -- What is written is the end of the text in front of the cursor, with or without a slash.
    have behind : ∀ front written, analysis.slice start offset = front ++ written →
        ∀ completions, Offer written ⟨offset - Text.byteLength written, offset⟩ completions →
          ∀ completion ∈ completions, completion.Replaces analysis.prompt.source offset := by
      intro front written parts completions offer
      have split :
          (String.ofList (analysis.slice start offset)).toList = front ++ written ++ [] := by
        rw [String.toList_ofList, List.append_nil, parts]
      have place := reads.inside split
      have size := reads.stop_eq
      rw [String.toList_ofList, parts, Text.byteLength_append] at size
      simp only at size place
      rw [show start + Text.byteLength front = offset - Text.byteLength written by omega,
        show offset - Text.byteLength written + Text.byteLength written = offset by omega] at place
      exact offer.replaces ⟨_, place⟩ (Nat.le_refl _) place
    simp only
    split
    next rest =>
      have parts : analysis.slice start offset = (before ++ ['<', '/']) ++ rest := by simp [whole]
      split
      · simp only [if_true]
        exact behind _ _ parts _ (Analysis.offer_completeCloseTag nodes offset)
      · exact List.forall_mem_nil _
    next =>
      have parts : analysis.slice start offset = (before ++ ['<']) ++ after := by simp [whole]
      split
      · exact behind _ _ parts _ (analysis.offer_completeComponent)
      · exact List.forall_mem_nil _

end Replacing

/-! ### Documents -/

/-- What is on the path from a node is below that node. -/
theorem Markup.Node.below_of_mem_descend {top node : Node} {offset : Nat}
    (member : node ∈ top.descend offset) : top.Below node := by
  fun_induction Node.descend top offset with
  | case1 top child found ih =>
    rcases List.mem_cons.mp member with rfl | later
    · exact .refl
    · exact .head (Node.childAt?_mem found) (ih later)
  | case2 top missing => rw [List.mem_singleton.mp member]; exact .refl

/-- The nodes under a cursor fit the source of a placed document, and the cursor is in them. -/
theorem Analysis.fits_of_mem_nodesAt {analysis : Analysis} {offset : Nat} {node : Node}
    (placed : (Node.root analysis.prompt.parsed.root).IsPlaced analysis.prompt.source)
    (member : node ∈ analysis.nodesAt offset) :
    node.Fits analysis.prompt.source ∧ node.span.touches offset := by
  rw [Analysis.nodesAt, List.mem_reverse, Node.pathAt] at member
  split at member
  next touches =>
    exact ⟨placed node (Node.below_of_mem_descend member),
      Node.touches_of_mem_descend touches member⟩
  next => cases member

/-- **Completions replace what has been written.** Every completion at a boundary of characters
replaces a range of the source with the cursor in it, and its label goes on from what the source
reads there in front of the cursor, in letters of either case. -/
theorem complete_replaces (options : CompileOptions) (source : String) (scope : Scope)
    (offset : Nat) (valid : (⟨offset⟩ : String.Pos.Raw).IsValid source) :
    ∀ completion ∈ (Analysis.ofSource options source scope).complete offset,
      completion.Replaces source offset := by
  have placed := Markup.placed_parse options.settings.literalTags source
  generalize same : Analysis.ofSource options source scope = analysis
  have origin : analysis.prompt.source = source := by rw [← same]; rfl
  have tree : (Node.root analysis.prompt.parsed.root).IsPlaced analysis.prompt.source := by
    rw [← same]; exact placed
  rw [← origin] at valid ⊢
  unfold Analysis.complete
  simp only
  have fits : ∀ node ∈ (analysis.nodesAt offset).head?,
      node.Fits analysis.prompt.source ∧ node.span.touches offset := fun node first =>
    Analysis.fits_of_mem_nodesAt tree (List.mem_of_mem_head? first)
  split
  next tag here =>
    obtain ⟨within, _⟩ := fits _ here
    split
    next touches =>
      exact Offer.replaces_text analysis.offer_completeComponent valid
        (within.reads _ List.mem_cons_self) touches
    next =>
      exact (analysis.offer_completeProperty tag none offset).replaces ⟨"", .empty valid⟩
        (Nat.le_refl _) (.empty valid)
  next pair here =>
    obtain ⟨within, _⟩ := fits _ here
    split
    next touches =>
      split
      next tag _ =>
        exact Offer.replaces_text (analysis.offer_completeProperty tag (some pair) offset) valid
          (within.reads _ List.mem_cons_self) touches
      next => exact List.forall_mem_nil _
    next => exact List.forall_mem_nil _
  next quoted here =>
    obtain ⟨within, _⟩ := fits _ here
    split
    next touches =>
      split
      next property _ =>
        exact Offer.replaces_text (offer_completeValue property) valid
          (within.reads _ List.mem_cons_self) touches
      next => exact List.forall_mem_nil _
    next => exact List.forall_mem_nil _
  next tag here =>
    obtain ⟨within, _⟩ := fits _ here
    split
    next touches =>
      exact Offer.replaces_text (Analysis.offer_completeCloseTag _ offset) valid
        (within.reads _ List.mem_cons_self) touches
    next => exact List.forall_mem_nil _
  next text here =>
    obtain ⟨within, touches⟩ := fits _ here
    simp only [Span.touches, Bool.and_eq_true, decide_eq_true_eq] at touches
    exact Analysis.completeText_replaces _ (.of_isValid within.start_isValid valid touches.1)
  next => exact List.forall_mem_nil _

/-- A list with a prop and a close tag that are only begun. -/
def begunList : String := "<list listSt='dash'>x</"

theorem complete_replaces_begunList :
    (⟨12⟩ : String.Pos.Raw).IsValid begunList ∧
      ∃ completion ∈ (Analysis.ofSource (.standard (.ofTable [])) begunList (.ofFrame [])).complete
          12,
        completion.label = "listStyle" ∧ completion.Replaces begunList 12 := by
  have valid : (⟨12⟩ : String.Pos.Raw).IsValid begunList := by decide
  have offered : ((Analysis.ofSource (.standard (.ofTable [])) begunList (.ofFrame [])).complete
      12).map Completion.label = ["listStyle"] := by decide +kernel
  obtain ⟨completion, member, label⟩ := List.mem_map.mp (offered ▸ List.mem_singleton_self _)
  exact ⟨valid, completion, member, label,
    complete_replaces _ begunList _ 12 valid completion member⟩

end PromptMarkup
