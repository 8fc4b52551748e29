/-
**Runs over a document and over the same document under another name.**

Two runs go the same way where their elements differ in ranges and in the name of a component only:
they look at the same things, and declare the same. Should the name be unknown to the first run, it
reports that.

* `EvaluationState.Twins`: states that agree in all that is looked at and declared;
* `Evaluate.Tracks`: two steps that keep it, or of which the first reports that a name is unknown;
  `Tracks.bind` puts such steps together;
* `tracks_attributeValue`, `tracks_elementProps`, `tracks_evaluateBinding`,
  `tracks_evaluateSchema` and others: the steps that elements are evaluated in.
-/

import PromptMarkup.Proofs.Component.RenamedTree
import PromptMarkup.Proofs.Component.Names
import PromptMarkup.Proofs.Evaluation.Quiet

namespace PromptMarkup

open Markup

/-! ### States -/

namespace EvaluationState

/-- Two states agree in all that an evaluation looks at, and in what has been declared. -/
structure Twins (first second : EvaluationState) : Prop where
  alike : first.Alike second
  schema : first.schema = second.schema
  singleSpeaker : first.singleSpeaker = second.singleSpeaker

theorem Twins.refl (state : EvaluationState) : state.Twins state := ⟨.refl state, rfl, rfl⟩

/-- What is on record and reported is not looked at. -/
theorem Twins.noted {first second : EvaluationState} (twins : first.Twins second)
    {trace record : Trace} {events others : List TraceEvent} {faults reports : List Diagnostic}
    {asked wanted : List String} {before after : List Occurrence} :
    Twins { first with
        trace := trace, events := events, diagnostics := faults, asked := asked
        occurrences := before }
      { second with
        trace := record, events := others, diagnostics := reports, asked := wanted
        occurrences := after } :=
  ⟨⟨twins.alike.scope, twins.alike.loader, twins.alike.registry, twins.alike.stylesheet,
    twins.alike.nextBuilder⟩, twins.schema, twins.singleSpeaker⟩

/-- Nothing that has been reported goes away, and tags go on to stand for the same components. -/
structure Grows (before after : EvaluationState) : Prop where
  diagnostics : before.diagnostics <+: after.diagnostics
  registry : after.registry.Resembles before.registry

theorem Grows.of_eq {before after : EvaluationState}
    (diagnostics : after.diagnostics = before.diagnostics)
    (registry : after.registry = before.registry) : before.Grows after :=
  ⟨diagnostics ▸ List.prefix_refl _, registry ▸ Registry.Resembles.refl _⟩

theorem Grows.trans {before between after : EvaluationState} (first : before.Grows between)
    (second : between.Grows after) : before.Grows after :=
  ⟨first.diagnostics.trans second.diagnostics, second.registry.trans first.registry⟩

theorem Grows.reported {before after : EvaluationState} (more : List Diagnostic)
    (diagnostics : after.diagnostics = before.diagnostics ++ more)
    (registry : after.registry = before.registry) : before.Grows after :=
  ⟨⟨more, diagnostics.symm⟩, registry ▸ Registry.Resembles.refl _⟩

end EvaluationState

namespace Markup.Relabel

/-- The report of a tag that stands for no component. -/
def unknownTag (span : Span) (name : String) : Diagnostic :=
  ⟨span, .information, .evaluate,
    "Unknown component <" ++ name ++ ">; its content is rendered as is"⟩

/-- A name that is written in another way has been reported to stand for no component. -/
def IsUnknown (relabel : Relabel) (diagnostics : List Diagnostic) : Prop :=
  ∃ span ∈ relabel.opens, unknownTag span relabel.old ∈ diagnostics

/-- Where something is renamed, both names stand for the same component. -/
def Admits (relabel : Relabel) (registry : Registry) : Prop :=
  relabel.opens ≠ [] → registry.Synonyms relabel.old relabel.new

theorem IsUnknown.grows {relabel : Relabel} {before after : EvaluationState}
    (unknown : relabel.IsUnknown before.diagnostics) (grows : before.Grows after) :
    relabel.IsUnknown after.diagnostics :=
  unknown.imp fun _ found => ⟨found.1, grows.diagnostics.subset found.2⟩

theorem Admits.grows {relabel : Relabel} {before after : EvaluationState}
    (admits : relabel.Admits before.registry) (grows : before.Grows after) :
    relabel.Admits after.registry :=
  fun some => (admits some).resembles grows.registry

/-- What is written instead of a name is that name, or the new one for the old one. -/
theorem Opens.tag {relabel : Relabel} {span : Span} {name word : String}
    (same : relabel.Opens span name word) :
    word = name ∨ name = relabel.old ∧ word = relabel.new := by
  unfold Opens at same
  split at same
  · exact .inr same
  · exact .inl same

/-- The name of an open tag and what is written instead of it are looked up alike. -/
theorem Admits.lookup {relabel : Relabel} {registry : Registry} (admits : relabel.Admits registry)
    {span : Span} {name word : String} (same : relabel.Opens span name word) :
    registry.lookup word = registry.lookup name := by
  unfold Opens at same
  split at same
  next member =>
    obtain ⟨rfl, rfl⟩ := same
    exact (admits (List.ne_nil_of_mem member)).lookup.symm
  next => rw [same]

end Markup.Relabel

/-! ### Steps -/

namespace Evaluate

/-- A step takes back no report, and leaves tags the components that they stand for. -/
def Growing {α : Type} (relabel : Relabel) (step : Evaluate α) : Prop :=
  ∀ state : EvaluationState, relabel.Admits state.registry → state.Grows (step.run state).2

/-- Two steps hand on what is related, and keep states twins, unless the first reports that a name
is unknown. -/
structure Tracks {α : Type} (relabel : Relabel) (related : α → α → Prop) (one other : Evaluate α) :
    Prop where
  grows : Growing relabel one
  pairs : ∀ {first second : EvaluationState}, first.Twins second →
    relabel.Admits first.registry → relabel.IsUnknown (one.run first).2.diagnostics ∨
      (related (one.run first).1 (other.run second).1 ∧
        (one.run first).2.Twins (other.run second).2)

variable {settings : Settings} {relabel : Relabel} {α β : Type} {related : α → α → Prop}
  {after : β → β → Prop}

theorem Growing.bind {step : Evaluate α} {next : α → Evaluate β} (here : Growing relabel step)
    (behind : ∀ value, Growing relabel (next value)) : Growing relabel (step >>= next) :=
  fun state admits => (here state admits).trans (behind _ _ (admits.grows (here state admits)))

/-- Steps that keep states twins whatever they are. -/
theorem tracks_of {one other : Evaluate α}
    (grows : ∀ state : EvaluationState, state.Grows (one.run state).2)
    (pairs : ∀ {first second : EvaluationState}, first.Twins second →
      related (one.run first).1 (other.run second).1 ∧
        (one.run first).2.Twins (other.run second).2) :
    Tracks relabel related one other :=
  ⟨fun state _ => grows state, fun twins _ => .inr (pairs twins)⟩

theorem tracks_pure {value again : α} (here : related value again) :
    Tracks relabel related (pure value) (pure again) :=
  tracks_of (fun _ => .of_eq rfl rfl) fun twins => ⟨here, twins⟩

/-- **Steps one after the other**, of which the second grow whatever they are handed. -/
theorem Tracks.bindGrowing {one other : Evaluate α} {next later : α → Evaluate β}
    (here : Tracks relabel related one other) (grows : ∀ value, Growing relabel (next value))
    (behind : ∀ value again, related value again →
      Tracks relabel after (next value) (later again)) :
    Tracks relabel after (one >>= next) (other >>= later) := by
  refine ⟨here.grows.bind grows, fun {first second} twins admits => ?_⟩
  have moved := admits.grows (here.grows first admits)
  rcases here.pairs twins admits with unknown | ⟨same, kept⟩
  · exact .inl (unknown.grows (grows _ _ moved))
  · exact (behind _ _ same).pairs kept moved

/-- **Steps one after the other.** -/
theorem Tracks.bind {one other : Evaluate α} {next later : α → Evaluate β}
    (reflexive : ∀ value, related value value) (here : Tracks relabel related one other)
    (behind : ∀ value again, related value again →
      Tracks relabel after (next value) (later again)) :
    Tracks relabel after (one >>= next) (other >>= later) :=
  here.bindGrowing (fun value => (behind value value (reflexive value)).grows) behind

/-- Steps one behind the other, of which the first hand on the same. -/
theorem Tracks.andThen {one other : Evaluate α} {next later : α → Evaluate β}
    (here : Tracks relabel Eq one other)
    (behind : ∀ value, Tracks relabel after (next value) (later value)) :
    Tracks relabel after (one >>= next) (other >>= later) :=
  here.bind (fun _ => rfl) fun value _ same => same ▸ behind value

/-- What is read off two states is read off twins. -/
theorem tracks_get_bind {next later : EvaluationState → Evaluate β}
    (behind : ∀ {first second : EvaluationState}, first.Twins second →
      Tracks relabel after (next first) (later second)) :
    Tracks relabel after (get >>= next) (get >>= later) :=
  ⟨fun state admits => (behind (.refl state)).grows state admits,
    fun twins admits => (behind twins).pairs twins admits⟩

/-- **A change of what is looked at** that depends on nothing else. -/
theorem tracks_modifyGet {one other : EvaluationState → α × EvaluationState}
    (grows : ∀ state : EvaluationState, state.Grows (one state).2)
    (pairs : ∀ {first second : EvaluationState}, first.Twins second →
      (one first).1 = (other second).1 ∧ (one first).2.Twins (other second).2) :
    Tracks relabel Eq (modifyGet one) (modifyGet other) :=
  tracks_of grows pairs

theorem tracks_modify {one other : EvaluationState → EvaluationState}
    (grows : ∀ state : EvaluationState, state.Grows (one state))
    (pairs : ∀ {first second : EvaluationState}, first.Twins second →
      (one first).Twins (other second)) :
    Tracks relabel Eq (modify one) (modify other) :=
  tracks_of grows fun twins => ⟨rfl, pairs twins⟩

/-! ### Reports -/

theorem tracks_reportAll (ones others : List Diagnostic) :
    Tracks relabel Eq (reportAll ones) (reportAll others) :=
  tracks_modify (fun _ => .reported ones rfl rfl) fun twins => twins.noted

theorem tracks_reportError (span place : Span) (message text : String) :
    Tracks relabel Eq (reportError span message) (reportError place text) :=
  tracks_reportAll _ _

theorem tracks_reportWarning (span place : Span) (message text : String) :
    Tracks relabel Eq (reportWarning span message) (reportWarning place text) :=
  tracks_reportAll _ _

theorem tracks_ask (path : String) : Tracks relabel Eq (ask path) (ask path) :=
  tracks_modify (fun _ => .of_eq rfl rfl) fun twins => twins.noted

/-! ### Expressions -/

/-- **An expression** has the same value at any range. -/
theorem tracks_evaluateTraced (kind : TraceKind) (expression : String) (span place : Span) :
    Tracks relabel Eq (evaluateTraced settings kind expression span)
      (evaluateTraced settings kind expression place) := by
  refine tracks_of (fun _ => .of_eq rfl rfl) fun {first second} twins => ⟨?_, ?_⟩
  · change Expr.run ⟨_, fun name => first.scope.get? name⟩ _ =
      Expr.run ⟨_, fun name => second.scope.get? name⟩ _
    rw [twins.alike.scope]
  · exact twins.noted

theorem tracks_evaluateReported (kind : TraceKind) (expression : String) (span place : Span) :
    Tracks relabel Eq (evaluateReported settings kind expression span)
      (evaluateReported settings kind expression place) := by
  refine (tracks_evaluateTraced _ _ _ _).andThen fun result => ?_
  cases result with
  | ok value => exact tracks_pure rfl
  | error error => exact (tracks_reportError _ _ _ _).andThen fun _ => tracks_pure rfl

/-- **A template in text.** -/
theorem tracks_evaluateTemplate {one other : Template} (same : one.Resembles other) :
    Tracks relabel (ChildrenRename relabel) (evaluateTemplate settings one)
      (evaluateTemplate settings other) := by
  unfold Template.Resembles at same
  unfold evaluateTemplate
  rw [same]
  split
  · exact tracks_pure .nil
  · refine (tracks_evaluateReported _ _ _ _).andThen fun value => ?_
    cases value with
    | none => exact tracks_pure .nil
    | some value => exact tracks_pure (childrenRename_text relabel _ _ _ _)

/-! ### Attributes -/

theorem tracks_templateValue {one other : Template} (same : one.Resembles other) :
    Tracks relabel Eq (templateValue settings one) (templateValue settings other) := by
  unfold Template.Resembles at same
  unfold templateValue
  rw [same]
  split
  · exact tracks_pure rfl
  · exact tracks_evaluateReported _ _ _ _

theorem tracks_partsText {ones others : List QuotedPart}
    (same : List.Forall₂ QuotedPart.Resembles ones others) :
    Tracks relabel Eq (partsText settings ones) (partsText settings others) := by
  induction same with
  | nil => exact tracks_pure rfl
  | cons first _ ih =>
    cases first with
    | text same =>
      rw [partsText, partsText, same]
      exact ih.andThen fun after => tracks_pure rfl
    | template same =>
      rw [partsText, partsText, same]
      split
      · exact ih
      · refine (tracks_evaluateReported _ _ _ _).andThen fun value => ?_
        cases value with
        | none => exact tracks_pure rfl
        | some value => exact ih.andThen fun after => tracks_pure rfl

theorem tracks_quotedExpression (key : String) {one other : Quoted}
    (same : other.value = one.value) :
    Tracks relabel Eq (quotedExpression settings key one)
      (quotedExpression settings key other) := by
  unfold quotedExpression
  rw [same]
  split
  · exact (tracks_reportError _ _ _ _).andThen fun _ => tracks_pure rfl
  · exact tracks_evaluateReported _ _ _ _

/-- **The value of an attribute.** -/
theorem tracks_attributeValue (asExpression : Bool) {one other : Attribute}
    (same : one.Resembles other) :
    Tracks relabel Eq (attributeValue settings asExpression one)
      (attributeValue settings asExpression other) := by
  obtain ⟨key, form⟩ := same
  unfold attributeValue
  generalize one.value = first at form
  generalize other.value = second at form
  cases form with
  | none => exact tracks_pure rfl
  | some form =>
    cases form with
    | quoted same =>
      simp only [same, key]
      split
      · exact tracks_quotedExpression _ same
      · exact tracks_pure rfl
    | quotedTemplate parts =>
      have sole := soleTemplate?_resembles parts
      simp only
      generalize QuotedTemplate.soleTemplate? _ = found at sole
      generalize QuotedTemplate.soleTemplate? _ = again at sole
      cases sole with
      | none => exact (tracks_partsText parts).andThen fun text => tracks_pure rfl
      | some same => exact tracks_templateValue same
    | template same => exact tracks_templateValue same
    | forIterator iterator collection =>
      simp only [iterator, collection]
      exact tracks_pure rfl

section Elements

variable {one other : Element}
  (pairs : List.Forall₂ Attribute.Resembles one.opening.attributes other.opening.attributes)
include pairs

theorem tracks_attributeText (key : String) :
    Tracks relabel Eq (attributeText settings one key) (attributeText settings other key) := by
  have found := attribute?_resembles pairs key
  unfold attributeText
  generalize one.attribute? key = first at found
  generalize other.attribute? key = second at found
  cases found with
  | none => exact tracks_pure rfl
  | some same =>
    refine (tracks_attributeValue false same).andThen fun value => ?_
    split
    · exact tracks_pure rfl
    · exact tracks_pure rfl
    · exact tracks_pure rfl

omit pairs in
theorem tracks_addProps (props : Props) {ones others : List Attribute}
    (pairs : List.Forall₂ Attribute.Resembles ones others) :
    Tracks relabel Eq (addProps settings props ones) (addProps settings props others) := by
  induction pairs generalizing props with
  | nil => exact tracks_pure rfl
  | cons first _ ih =>
    rw [addProps, addProps, first.key]
    split
    · exact ih props
    · refine (tracks_attributeValue false first).andThen fun value => ?_
      cases value with
      | none => exact ih props
      | some value => exact ih _

/-- **The props of an element**, under any name of its component. -/
theorem tracks_elementProps {component : Component}
    (keys : Stylesheet.keysFor component other.name = Stylesheet.keysFor component one.name) :
    Tracks relabel Eq (elementProps settings component one)
      (elementProps settings component other) := by
  refine tracks_get_bind fun {first second} twins => ?_
  rw [twins.alike.stylesheet]
  unfold Stylesheet.defaults
  rw [keys]
  exact tracks_addProps _ pairs

end Elements

end Evaluate

end PromptMarkup
