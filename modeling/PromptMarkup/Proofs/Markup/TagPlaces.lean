/-
**Places in tags.**

Every reader of the parser that is given a run of tokens hands back a node that is placed, and
leaves a run behind it, whatever is missing or malformed in between.

* `Node.Stands`: a placed node with a run of tokens behind it;
* `readTemplate_stands`, `readQuoted_stands`, `readAttribute_placed`: the parts of a tag;
* `readOpenTag_placed`, `readCloseTag_stands`: tags.
-/

import Mathlib.Data.Option.Basic
import PromptMarkup.Proofs.Markup.NodePlaces
import PromptMarkup.Proofs.Markup.TokenTiling

namespace PromptMarkup.Markup

variable {tags : LiteralTags} {source : String} {start : Nat} {tokens : List Token}

/-- A placed node from an offset on, with a run of tokens from its end on. -/
structure Node.Stands (tags : LiteralTags) (source : String) (start : Nat) (node : Node)
    (rest : List Token) : Prop where
  start_eq : node.span.start = start
  placed : node.IsPlaced source
  run : Run tags source node.span.stop rest

theorem Node.Stands.le {node : Node} (stands : node.Stands tags source start tokens) :
    start ≤ node.span.stop := by
  rw [← stands.start_eq]
  exact stands.placed.fits.ordered

/-- A node without children stands between the ends of its range. -/
theorem Node.Stands.leaf {node : Node} {stop : Nat} (none : node.children = [])
    (place : node.span = ⟨start, stop⟩) (valid : (⟨start⟩ : String.Pos.Raw).IsValid source)
    (le : start ≤ stop) (reads : ∀ part ∈ node.texts, part.2.Reads source part.1)
    (run : Run tags source stop tokens) : node.Stands tags source start tokens := by
  have first : node.span.start = start := by rw [place]
  have last : node.span.stop = stop := by rw [place]
  refine ⟨first, .of_row ?_ ?_ ?_ reads, ?_⟩
  · rwa [first]
  · rw [last]
    exact run.isValid
  · rw [none, first, last]
    exact le
  · rwa [last]

/-! ### Templates -/

/-- **A template stands where it is read.** -/
theorem readTemplate_stands {opening : Token} (sound : opening.IsSound source)
    (run : Run tags source opening.span.stop tokens) :
    (Node.template (readTemplate opening tokens).node).Stands tags source opening.span.start
      (readTemplate opening tokens).rest := by
  obtain ⟨leading, inner⟩ := run.skipKind .whitespace
  obtain ⟨place, reads, behind⟩ := inner.optional .textContent
  obtain ⟨trailing, ending⟩ := behind.skipKind .whitespace
  obtain ⟨last, closing, left⟩ := ending.optional .templateClose
  have order := reads.start_le_stop
  have close := closing.start_le_stop
  have mark := sound.nonempty
  unfold readTemplate
  simp only [Run.elim_stop, Run.elim_span]
  refine .leaf rfl rfl sound.reads.start_isValid ?_ (List.forall_mem_singleton.mpr reads) left
  omega

/-! ### Quoted values -/

/-- Some parts of a quoted value are text only. -/
def areTexts (parts : List QuotedPart) : Prop := ∀ part ∈ parts, ∃ node, part = .text node

/-- The text of some parts of a quoted value that are text only. -/
def partsText (parts : List QuotedPart) : String :=
  String.join (parts.map fun
    | .text node => node.value
    | .template _ => "")

/-- Where the last part of a quoted value ends: in front of the closing quote if there is one. -/
def QuotedParts.textStop (parts : QuotedParts) : Nat :=
  if parts.closed then parts.stop - 1 else parts.stop

/-- **The parts of a quoted value stand in a row** up to where the value ends. If they are text
only, their text is what the source reads from the first to the last. -/
theorem readParts_placed {quote : TokenKind} (mark : quote = .doubleQuote ∨ quote = .singleQuote)
    (run : Run tags source start tokens) :
    Row source start ((readParts quote start tokens).node.parts.map QuotedPart.node)
        (readParts quote start tokens).node.stop ∧
      (areTexts (readParts quote start tokens).node.parts →
        (⟨start, (readParts quote start tokens).node.textStop⟩ : Span).Reads source
          (partsText (readParts quote start tokens).node.parts)) ∧
      Run tags source (readParts quote start tokens).node.stop
        (readParts quote start tokens).rest := by
  fun_induction readParts quote start tokens with
  | case1 stop => exact ⟨Nat.le_refl stop, fun _ => .empty run.isValid, run⟩
  | case2 stop token rest same =>
    obtain ⟨rfl, sound, left⟩ := run.uncons
    have size : token.span.stop - 1 = token.span.start := by
      have fixed : ∃ char : Char, char.utf8Size = 1 ∧
          token.kind.fixedText = some (String.ofList [char]) := by
        rcases mark with rfl | rfl
        · exact ⟨'"', by decide, by rw [same]; rfl⟩
        · exact ⟨'\'', by decide, by rw [same]; rfl⟩
      obtain ⟨char, one, text⟩ := fixed
      have whole := sound.stop_eq text
      rw [String.toList_ofList, Text.byteLength_cons, Text.byteLength_nil, one] at whole
      omega
    refine ⟨sound.nonempty.le, fun _ => ?_, left⟩
    show (⟨token.span.start, token.span.stop - 1⟩ : Span).Reads source ""
    rw [size]
    exact .empty sound.reads.start_isValid
  | case3 stop token rest other opens template others ih =>
    obtain ⟨rfl, sound, inner⟩ := run.uncons
    have stands := readTemplate_stands sound inner
    obtain ⟨row, _, left⟩ := ih stands.run
    refine ⟨⟨stands.start_eq.ge, stands.placed, row⟩, fun texts => ?_, left⟩
    obtain ⟨node, absurd⟩ := texts _ List.mem_cons_self
    cases absurd
  | case4 stop token rest other opens text others ih =>
    obtain ⟨rfl, sound, behind⟩ := run.uncons
    obtain ⟨row, reads, left⟩ := ih behind
    refine ⟨⟨Nat.le_refl _, .text sound.reads, row⟩, fun texts => ?_, left⟩
    have later : areTexts others.node.parts :=
      fun part member => texts part (List.mem_cons_of_mem _ member)
    have joined : partsText (.text ⟨token.text, token.span⟩ :: others.node.parts) =
        token.text ++ partsText others.node.parts := by
      unfold partsText
      rw [List.map_cons, String.join_cons]
    show (⟨token.span.start, others.node.textStop⟩ : Span).Reads source
      (partsText (.text ⟨token.text, token.span⟩ :: others.node.parts))
    rw [joined]
    exact Span.Reads.append sound.reads (reads later)
  | case5 stop token rest => exact ⟨Nat.le_refl stop, fun _ => .empty run.isValid, run⟩

/-- **The names in an iterator are what the source reads at their ranges.** -/
theorem forIterator?_reads {quoted : Quoted} {iterator : ForIterator}
    (reads : quoted.valueSpan.Reads source quoted.value)
    (found : forIterator? quoted = some iterator) :
    iterator.span = quoted.span ∧
      ∀ part ∈ (Node.forIterator iterator).texts, part.2.Reads source part.1 := by
  unfold forIterator? at found
  simp only [Option.bind_eq_bind, Option.bind_eq_some_iff, Option.pure_def,
    Option.some.injEq] at found
  obtain ⟨_, _, _, _, rest, word, _, _, rfl⟩ := found
  have leading := Text.cutWhile_append Text.isBlank quoted.value.toList
  generalize Text.cutWhile Text.isBlank quoted.value.toList = first at leading word ⊢
  have name := Text.cutWhile_append isIteratorContinue first.2
  generalize Text.cutWhile isIteratorContinue first.2 = second at name word ⊢
  have before := Text.cutWhile_append Text.isBlank second.2
  generalize Text.cutWhile Text.isBlank second.2 = third at before word ⊢
  have keyword := Text.eq_append_of_dropPrefix? word
  have after := Text.cutWhile_append Text.isBlank rest
  generalize Text.cutWhile Text.isBlank rest = fourth at after ⊢
  have trailing : Text.trimEnd fourth.2 ++ fourth.2.drop (Text.trimEnd fourth.2).length =
      fourth.2 := trimEndBy_append_drop Text.isBlank fourth.2
  -- The value is cut into blanks, the name, blanks, the word, blanks, the collection and blanks.
  have toName : quoted.value.toList = first.1 ++ second.1 ++ second.2 := by
    rw [← leading, ← name, List.append_assoc]
  have toCollection : quoted.value.toList =
      (first.1 ++ second.1 ++ third.1 ++ ['i', 'n'] ++ fourth.1) ++ Text.trimEnd fourth.2 ++
        fourth.2.drop (Text.trimEnd fourth.2).length := by
    rw [List.append_assoc, trailing, toName, ← before, keyword, ← after]
    simp only [List.append_assoc]
  refine ⟨rfl, List.forall_mem_cons.mpr
    ⟨reads.inside toName, List.forall_mem_singleton.mpr ?_⟩⟩
  have collection := reads.inside toCollection
  have word : Text.byteLength ['i', 'n'] = 2 := by decide
  simp only [Text.byteLength_append, word, ← Nat.add_assoc] at collection
  exact collection

theorem forIterator?_stands {quoted : Quoted} {iterator : ForIterator}
    (found : forIterator? quoted = some iterator)
    (reads : quoted.valueSpan.Reads source quoted.value)
    (valid : (⟨quoted.span.start⟩ : String.Pos.Raw).IsValid source)
    (le : quoted.span.start ≤ quoted.span.stop) (run : Run tags source quoted.span.stop tokens) :
    (Node.forIterator iterator).Stands tags source quoted.span.start tokens := by
  obtain ⟨span, parts⟩ := forIterator?_reads reads found
  exact .leaf rfl span valid le parts run

/-- **A quoted value stands where it is read.** -/
theorem readQuoted_stands (key : String) {opening : Token}
    (mark : opening.kind = .doubleQuote ∨ opening.kind = .singleQuote)
    (sound : opening.IsSound source) (run : Run tags source opening.span.stop tokens) :
    (readQuoted key opening tokens).node.node.Stands tags source opening.span.start
      (readQuoted key opening tokens).rest := by
  obtain ⟨row, reads, left⟩ := readParts_placed mark run
  have start := sound.reads.start_isValid
  unfold readQuoted
  simp only
  generalize readParts opening.kind opening.span.stop tokens = reading at row reads left ⊢
  have around : opening.span.start ≤ reading.node.stop :=
    Nat.le_trans sound.nonempty.le row.start_le_stop
  split
  · refine ⟨rfl, .of_row start left.isValid ?_ (fun _ absurd => by cases absurd), left⟩
    exact row.mono sound.nonempty.le (Nat.le_refl _)
  next texts =>
    have all : areTexts reading.node.parts := by
      intro part member
      cases part with
      | text node => exact ⟨node, rfl⟩
      | template node => exact absurd (List.any_eq_true.mpr ⟨_, member, rfl⟩) texts
    have value := reads all
    have quoted : (⟨opening.span.stop, max reading.node.textStop opening.span.stop⟩ : Span).Reads
        source (partsText reading.node.parts) := by
      rwa [Nat.max_eq_left value.start_le_stop]
    have plain : (Node.quoted ⟨partsText reading.node.parts,
        ⟨opening.span.stop, max reading.node.textStop opening.span.stop⟩,
        ⟨opening.span.start, reading.node.stop⟩⟩).Stands tags source opening.span.start
        reading.rest :=
      .leaf rfl rfl start around (List.forall_mem_singleton.mpr quoted) left
    split
    · split
      next iterator found =>
        exact forIterator?_stands found quoted start around left
      next => exact plain
    · exact plain

/-! ### Attributes -/

/-- **The value of an attribute stands where it is read.** Without a value nothing is taken. -/
theorem readValue_stands (key : String) (named : Span) (run : Run tags source start tokens) :
    (∀ value ∈ (readValue key named tokens).node,
        value.node.Stands tags source start (readValue key named tokens).rest) ∧
      ((readValue key named tokens).node = none →
        Run tags source start (readValue key named tokens).rest) := by
  have nothing : (∀ value ∈ (none : Option AttributeValue),
        value.node.Stands tags source start tokens) ∧
      ((none : Option AttributeValue) = none → Run tags source start tokens) :=
    ⟨fun _ absurd => (by cases absurd), fun _ => run⟩
  have just : ∀ (value : AttributeValue) rest, value.node.Stands tags source start rest →
      (∀ other ∈ some value, other.node.Stands tags source start rest) ∧
        (some value = none → Run tags source start rest) := by
    refine fun value rest stands => ⟨fun other member => ?_, fun absurd => by cases absurd⟩
    rwa [← Option.mem_some.mp member]
  unfold readValue
  split
  · exact nothing
  next token rest =>
    obtain ⟨rfl, sound, behind⟩ := run.uncons
    split
    next kind => exact just _ _ (readQuoted_stands key (.inl kind) sound behind)
    next kind => exact just _ _ (readQuoted_stands key (.inr kind) sound behind)
    next => exact just (.template _) _ (readTemplate_stands sound behind)
    next =>
      exact just (.quoted _) _ (.leaf rfl rfl sound.reads.start_isValid
        sound.nonempty.le (List.forall_mem_singleton.mpr sound.reads) behind)
    next =>
      exact just (.quoted _) _ (.leaf rfl rfl sound.reads.start_isValid
        sound.nonempty.le (List.forall_mem_singleton.mpr sound.reads) behind)
    next => exact nothing

theorem span_valueNode (value : AttributeValue) : value.node.span = value.span := by
  cases value <;> rfl

/-- **An attribute is placed** from its key on, and a run is left behind it. -/
theorem readAttribute_placed {key : Token} (sound : key.IsSound source)
    (run : Run tags source key.span.stop tokens) :
    (readAttribute key tokens).node.span.start = key.span.start ∧
      (Node.pair (readAttribute key tokens).node).IsPlaced source ∧
      RunBeyond tags source (readAttribute key tokens).node.span.stop
        (readAttribute key tokens).rest := by
  have start := sound.reads.start_isValid
  have order := sound.nonempty.le
  have name : ∀ part ∈ [(key.text, key.span)], part.2.Reads source part.1 :=
    List.forall_mem_singleton.mpr sound.reads
  obtain ⟨blank, le, inner⟩ := run.skipKind_beyond .whitespace 0
  unfold readAttribute
  rcases inner.takeKind .equals with same | ⟨equals, after, same, _, place, mark, behind⟩
  · rw [same]
    exact ⟨rfl, .of_row start sound.reads.stop_isValid order name, run.beyond⟩
  · rw [same]
    obtain ⟨next, ge, left⟩ := behind.skipKind_beyond .whitespace 0
    have sign := mark.nonempty
    obtain ⟨written, missing⟩ :=
      readValue_stands key.text ⟨key.span.start, equals.span.stop⟩ left
    simp only
    generalize readValue key.text ⟨key.span.start, equals.span.stop⟩ _ = reading
      at written missing ⊢
    obtain ⟨value, problems, rest⟩ := reading
    cases value with
    | none =>
      refine ⟨trivial, .of_row start behind.isValid ?_ name, next, ge, missing rfl⟩
      show key.span.start ≤ equals.span.stop
      omega
    | some value =>
      have stands := written value rfl
      have whole := stands.run
      rw [span_valueNode] at whole
      refine ⟨trivial, .of_row start whole.isValid ?_ name, whole.beyond⟩
      refine row_singleton stands.placed ?_ (span_valueNode value ▸ Nat.le_refl _)
      show key.span.start ≤ value.node.span.start
      rw [stands.start_eq]
      omega

/-! ### Tags -/

theorem skipStray_beyond (kind : TokenKind) (run : RunBeyond tags source start tokens) :
    RunBeyond tags source start (skipStray kind tokens) := by
  unfold skipStray
  split
  · exact (run.dropWhile _).drop 1
  · exact run

/-- **The attributes of a tag stand in a row** up to where the tag ends. Templates and stray tokens
between them are passed over. -/
theorem readInside_placed (name : String)
    (valid : (⟨start⟩ : String.Pos.Raw).IsValid source) (run : RunBeyond tags source start tokens) :
    Row source start ((readInside name start tokens).node.attributes.map Node.pair)
        (readInside name start tokens).node.stop ∧
      (⟨(readInside name start tokens).node.stop⟩ : String.Pos.Raw).IsValid source ∧
      RunBeyond tags source (readInside name start tokens).node.stop
        (readInside name start tokens).rest := by
  fun_induction readInside name start tokens with
  | case1 stop => exact ⟨Nat.le_refl stop, valid, run⟩
  | case2 stop token rest kind ih =>
    obtain ⟨_, le, left⟩ := run
    obtain ⟨rfl, sound, behind⟩ := left.uncons
    obtain ⟨row, others⟩ := ih sound.reads.stop_isValid behind.beyond
    exact ⟨row.mono (Nat.le_trans le sound.nonempty.le) (Nat.le_refl _), others⟩
  | case3 stop token rest kind first others ih =>
    obtain ⟨_, le, left⟩ := run
    obtain ⟨rfl, sound, behind⟩ := left.uncons
    obtain ⟨start, placed, beyond⟩ := readAttribute_placed sound behind
    obtain ⟨row, others⟩ := ih placed.fits.stop_isValid beyond
    exact ⟨⟨Nat.le_trans le start.ge, placed, row⟩, others⟩
  | case4 stop token rest kind | case5 stop token rest kind =>
    obtain ⟨_, le, left⟩ := run
    obtain ⟨rfl, sound, behind⟩ := left.uncons
    exact ⟨Nat.le_refl stop, valid, behind.beyond.mono (Nat.le_trans le sound.nonempty.le)⟩
  | case6 stop token rest kind template others ih =>
    obtain ⟨_, le, left⟩ := run
    obtain ⟨rfl, sound, behind⟩ := left.uncons
    have stands := readTemplate_stands sound behind
    obtain ⟨row, others⟩ := ih stands.placed.fits.stop_isValid stands.run.beyond
    exact ⟨row.mono (Nat.le_trans le stands.le) (Nat.le_refl _), others⟩
  | case7 stop token rest kind others ih | case8 stop token rest kind others ih
  | case9 stop token rest kind others ih | case10 stop token rest kind others ih =>
    obtain ⟨_, le, left⟩ := run
    obtain ⟨rfl, sound, behind⟩ := left.uncons
    obtain ⟨row, others⟩ := ih sound.reads.stop_isValid (skipStray_beyond token.kind behind.beyond)
    exact ⟨row.mono (Nat.le_trans le sound.nonempty.le) (Nat.le_refl _), others⟩
  | case11 stop token rest => exact ⟨Nat.le_refl stop, valid, run⟩

/-- **An open tag is placed** from its bracket on, which it holds, and a run is left behind it. -/
theorem readOpenTag_placed {bracket : Token} (fixed : bracket.kind.fixedText = some "<")
    (sound : bracket.IsSound source) (run : Run tags source bracket.span.stop tokens) :
    (readOpenTag bracket tokens).node.1.span.start = bracket.span.start ∧
      bracket.span.stop ≤ (readOpenTag bracket tokens).node.1.span.stop ∧
      (Node.openTag (readOpenTag bracket tokens).node.1).IsPlaced source ∧
      RunBeyond tags source (readOpenTag bracket tokens).node.1.span.stop
        (readOpenTag bracket tokens).rest := by
  have size : bracket.span.stop = bracket.span.start + 1 := sound.stop_eq fixed
  obtain ⟨place, reads, behind⟩ := run.optional .identifier
  unfold readOpenTag
  rw [← size]
  obtain ⟨row, valid, beyond⟩ := readInside_placed
    (Run.optionalText (Markup.takeKind .identifier tokens).1) reads.stop_isValid behind.beyond
  have name := calc bracket.span.stop
    _ = _ := place.symm
    _ ≤ _ := reads.start_le_stop
  refine ⟨rfl, Nat.le_trans name row.start_le_stop, .of_row sound.reads.start_isValid valid ?_ ?_,
    beyond⟩
  · exact row.mono (Nat.le_trans sound.nonempty.le name) (Nat.le_refl _)
  · exact List.forall_mem_singleton.mpr reads

/-- **A close tag stands where it is read.** -/
theorem readCloseTag_stands {bracket : Token} (fixed : bracket.kind.fixedText = some "</")
    (sound : bracket.IsSound source) (run : Run tags source bracket.span.stop tokens) :
    (Node.closeTag (readCloseTag bracket tokens).node).Stands tags source bracket.span.start
      (readCloseTag bracket tokens).rest := by
  have size : bracket.span.stop = bracket.span.start + 2 := sound.stop_eq fixed
  obtain ⟨place, reads, behind⟩ := run.optional .identifier
  obtain ⟨trailing, ending⟩ := behind.skipKind .whitespace
  obtain ⟨last, closing, left⟩ := ending.optional .closeBracket
  have order := calc bracket.span.start
    _ ≤ bracket.span.stop := sound.nonempty.le
    _ = _ := place.symm
    _ ≤ _ := reads.start_le_stop
    _ ≤ _ := trailing
    _ = _ := last.symm
    _ ≤ _ := closing.start_le_stop
  unfold readCloseTag
  simp only [← size, Run.elim_stop]
  exact .leaf rfl rfl sound.reads.start_isValid order (List.forall_mem_singleton.mpr reads) left

end PromptMarkup.Markup
