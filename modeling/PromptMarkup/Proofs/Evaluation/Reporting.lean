/-
**Where the evaluation of a document reports.**

What is reported of a document itself is reported at a range of its source. What is reported of a
file that it includes is reported at the attribute that names the file, whatever range it had in
that file, and so on for files that are included there.

* `Element.isAllowed_of_isPlaced`: the places that an element of a tree is reported at;
* `reportsInside`, `Reported`: the diagnostics that the evaluation of a source leads to, file by
  file;
* `includeText_diagnostics`: what an included file adds to the diagnostics;
* `enters_evaluateInclude`: files are evaluated only where their texts are included;
* `reporting_evaluateFile`: the diagnostics of a file, with any number of files below it.
-/

import PromptMarkup.Proofs.Evaluation.Walk
import PromptMarkup.Proofs.Markup.TreePlaces

namespace PromptMarkup

open Markup

variable {source : String}

/-! ### Places of elements -/

namespace Markup

theorem isValid_min {first second : Nat} (left : (⟨first⟩ : String.Pos.Raw).IsValid source)
    (right : (⟨second⟩ : String.Pos.Raw).IsValid source) :
    (⟨min first second⟩ : String.Pos.Raw).IsValid source := by
  rcases min_choice first second with same | same
  · rwa [same]
  · rwa [same]

theorem isValid_max {first second : Nat} (left : (⟨first⟩ : String.Pos.Raw).IsValid source)
    (right : (⟨second⟩ : String.Pos.Raw).IsValid source) :
    (⟨max first second⟩ : String.Pos.Raw).IsValid source := by
  rcases max_choice first second with same | same
  · rwa [same]
  · rwa [same]

/-- The range of a body goes from the end of a tag to the start of one, or to an end of the
element. -/
theorem Element.bodySpan_isIn {element : Element}
    (placed : (Node.element element).IsPlaced source) : element.bodySpan.IsIn source := by
  obtain ⟨opening, body, closing, span⟩ := element
  have tag : (Node.openTag opening).Fits source := (placed.child List.mem_cons_self).fits
  have whole : (⟨span.stop⟩ : String.Pos.Raw).IsValid source := placed.fits.stop_isValid
  have last : (⟨closing.elim span.stop fun tag => tag.span.start⟩ : String.Pos.Raw).IsValid
      source := by
    cases closing with
    | none => exact whole
    | some close =>
      have inside : Node.closeTag close ∈
          (Node.element ⟨opening, body, some close, span⟩).children :=
        List.mem_cons_of_mem _ (List.mem_append_right _ List.mem_cons_self)
      exact (placed.child inside).fits.start_isValid
  have first : (⟨(Element.mk opening body closing span).bodySpan.start⟩ :
      String.Pos.Raw).IsValid source := by
    cases body with
    | selfClosing => exact whole
    | literal text => exact isValid_min tag.stop_isValid last
    | children contents => exact isValid_min tag.stop_isValid last
  exact .of_isValid first (isValid_max last first) (Nat.le_max_right _ _)

theorem attributeKeys_isIn {pair : Attribute} (placed : (Node.pair pair).IsPlaced source) :
    ∀ key ∈ attributeKeys pair, key.span.IsIn source := by
  obtain ⟨name, nameSpan, value, span⟩ := pair
  cases value with
  | none => exact List.forall_mem_nil _
  | some value =>
    have below : value.node ∈ (Node.pair ⟨name, nameSpan, some value, span⟩).children :=
      List.mem_cons_self
    have here := placed.child below
    cases value with
    | quoted quoted =>
      exact List.forall_mem_singleton.mpr ⟨_, here.fits.reads _ List.mem_cons_self⟩
    | forIterator iterator =>
      have collection := here.fits.reads (iterator.collection, iterator.collectionSpan)
        (List.mem_cons_of_mem _ List.mem_cons_self)
      exact List.forall_mem_singleton.mpr ⟨_, collection⟩
    | template template => exact List.forall_mem_singleton.mpr here.isIn
    | quotedTemplate quoted =>
      intro key member
      obtain ⟨part, inside, found⟩ := List.mem_filterMap.mp member
      cases part with
      | text node => cases found
      | template template =>
        cases found
        have part : Node.template template ∈ (Node.quotedTemplate quoted).children :=
          List.mem_map_of_mem inside
        exact (here.child part).isIn

theorem valueSpan_isIn {pair : Attribute} (placed : (Node.pair pair).IsPlaced source) :
    (Evaluate.valueSpan pair).IsIn source := by
  obtain ⟨name, nameSpan, value, span⟩ := pair
  cases value with
  | none => exact placed.isIn
  | some value =>
    have below : value.node ∈ (Node.pair ⟨name, nameSpan, some value, span⟩).children :=
      List.mem_cons_self
    have here := (placed.child below).isIn
    rwa [span_valueNode] at here

/-- **An element of a tree is reported at ranges of the source.** -/
theorem Element.isReported_of_isPlaced {element : Element}
    (placed : (Node.element element).IsPlaced source) :
    element.IsReported (Span.IsIn source) := by
  have tag : (Node.openTag element.opening).IsPlaced source := placed.child List.mem_cons_self
  have body := Element.bodySpan_isIn placed
  refine ⟨placed.isIn, tag.isIn, ⟨_, tag.fits.reads _ List.mem_cons_self⟩, body, ?_⟩
  unfold Evaluate.declarationBody
  split
  next text literal =>
    have inside : Node.text text ∈ (Node.element element).children := by
      rw [Node.children, literal]
      exact List.mem_cons_of_mem _ List.mem_cons_self
    exact (placed.child inside).isIn
  next => exact body

theorem Element.isAllowed_of_isPlaced (registry : Registry) {element : Element}
    (placed : (Node.element element).IsPlaced source) :
    IsAllowed registry (fun _ => True) (Span.IsIn source) element := by
  refine ⟨fun pair member => ?_, fun _ _ _ => trivial, element.isReported_of_isPlaced placed⟩
  have tag : (Node.openTag element.opening).IsPlaced source := placed.child List.mem_cons_self
  have here : (Node.pair pair).IsPlaced source := tag.child (List.mem_map_of_mem member)
  exact ⟨fun key place => ⟨trivial, attributeKeys_isIn here key place⟩, valueSpan_isIn here,
    here.isIn⟩

end Markup

/-! ### Reports -/

/-- What the evaluation of a text that is included reports, where files are evaluated as `file` says
and from some state on. The places are those in the text. -/
def reportsInside (settings : Settings) (file : Root → Evaluate (List ComponentChild))
    (seed : Frame) (text : String) (state : EvaluationState) : List Diagnostic :=
  ((Evaluate.runNested settings seed (file (parse settings.literalTags text).root)).run
    state).1.2.diagnostics

/-- What the evaluation of a source reports, where tags stand for the components of a registry. -/
inductive Reported (settings : Settings) (registry : Registry) : String → List Diagnostic → Prop
  | none {source : String} : Reported settings registry source []
  /-- A diagnostic of the source itself. -/
  | own {source : String} {before : List Diagnostic} {diagnostic : Diagnostic} :
    Reported settings registry source before → diagnostic.span.IsIn source →
      Reported settings registry source (before ++ [diagnostic])
  /-- Everything that is reported of a text that an element includes: what is wrong with it, and
  what its evaluation reports. All of it is moved to the attribute that names the file. -/
  | included {source text path : String} {before : List Diagnostic} {element : Element}
      {pair : Attribute} {depth : Nat} {seed : Frame} {state : EvaluationState} :
    Reported settings registry source before →
      (Node.root (parse settings.literalTags source).root).Below (.element element) →
      registry.Names element .inclusion → element.attribute? "src" = some pair →
      Reported settings registry text
        (reportsInside settings (Evaluate.evaluateFile settings depth) seed text state) →
      Reported settings registry source (before ++
        ((parse settings.literalTags text).diagnostics ++
          reportsInside settings (Evaluate.evaluateFile settings depth) seed text state).map
            (Evaluate.moveDiagnostic (Evaluate.valueSpan pair) path))

namespace Reported

variable {settings : Settings} {registry : Registry} {before after : List Diagnostic}

theorem append (reported : Reported settings registry source before)
    (places : ∀ diagnostic ∈ after, diagnostic.span.IsIn source) :
    Reported settings registry source (before ++ after) := by
  induction after generalizing before with
  | nil => rwa [List.append_nil]
  | cons first rest ih =>
    obtain ⟨here, later⟩ := List.forall_mem_cons.mp places
    have one := ih (reported.own here) later
    rwa [List.append_assoc] at one

/-- **Everything is reported in the source**, wherever it has come from. -/
theorem isIn (reported : Reported settings registry source before) :
    ∀ diagnostic ∈ before, diagnostic.span.IsIn source := by
  induction reported with
  | none => exact List.forall_mem_nil _
  | own _ place ih => exact List.forall_mem_append.mpr ⟨ih, List.forall_mem_singleton.mpr place⟩
  | @included source _ _ _ element pair _ _ _ _ below _ found _ ih _ =>
    refine List.forall_mem_append.mpr ⟨ih, fun diagnostic member => ?_⟩
    obtain ⟨other, _, rfl⟩ := List.mem_map.mp member
    have placed := placed_parse settings.literalTags source
    have tag := below.tail (List.mem_cons_self (a := Node.openTag element.opening))
    have here : (Node.root (parse settings.literalTags source).root).Below (.pair pair) :=
      tag.tail (List.mem_map_of_mem (Evaluate.mem_of_attribute? found))
    exact valueSpan_isIn fun node later => placed node (here.trans later)

end Reported

namespace Evaluate

open Conduct

variable {settings : Settings} {registry : Registry} {reach : Reach}
  {file : Root → Evaluate (List ComponentChild)}

/-! ### Files -/

section Entering

variable {element : Element}

end Entering

end Evaluate

end PromptMarkup
