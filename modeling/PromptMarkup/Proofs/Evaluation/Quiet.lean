/-
**Quiet steps.**

Most steps of an evaluation change nothing that a later step looks at: they put evaluations on
record, report faults and take up declarations. What they hand on depends on what they look at
alone, which is the scope, the files being included, the components, the stylesheet and the
identities given away.

* `EvaluationState.Alike`: two states that agree in all of that;
* `EvaluationState.Leads`: what comes of a state by notes and declarations;
* `Evaluate.Quiet`: a step that leads there, the value of which is that from all alike states;
* `quiet_attributeValue`, `quiet_elementProps`, `quiet_evaluateSchema` and others: the steps of an
  evaluation but those that bind names, apply pragmas and stylesheets, and include files.
-/

import PromptMarkup.Evaluation.Document

namespace PromptMarkup

open Markup

/-! ### States -/

namespace EvaluationState

/-- Two states agree in all that an evaluation looks at. -/
structure Alike (first second : EvaluationState) : Prop where
  scope : first.scope = second.scope
  loader : first.loader = second.loader
  registry : first.registry = second.registry
  stylesheet : first.stylesheet = second.stylesheet
  nextBuilder : first.nextBuilder = second.nextBuilder

variable {first second third : EvaluationState}

theorem Alike.refl (state : EvaluationState) : state.Alike state := ⟨rfl, rfl, rfl, rfl, rfl⟩

theorem Alike.symm (same : first.Alike second) : second.Alike first :=
  ⟨same.scope.symm, same.loader.symm, same.registry.symm, same.stylesheet.symm,
    same.nextBuilder.symm⟩

theorem Alike.trans (same : first.Alike second) (more : second.Alike third) : first.Alike third :=
  ⟨same.scope.trans more.scope, same.loader.trans more.loader, same.registry.trans more.registry,
    same.stylesheet.trans more.stylesheet, same.nextBuilder.trans more.nextBuilder⟩

/-- A state with another scope and other identities given away, which depend on what these were. -/
def rebind (change : Scope → Nat → Scope × Nat) (state : EvaluationState) : EvaluationState :=
  { state with
    scope := (change state.scope state.nextBuilder).1
    nextBuilder := (change state.scope state.nextBuilder).2 }

theorem Alike.rebind (same : first.Alike second) (change : Scope → Nat → Scope × Nat) :
    (first.rebind change).Alike (second.rebind change) := by
  refine ⟨?_, same.loader, same.registry, same.stylesheet, ?_⟩
  · simp only [EvaluationState.rebind, same.scope, same.nextBuilder]
  · simp only [EvaluationState.rebind, same.scope, same.nextBuilder]

/-- A state differs from an earlier one in what is on record and reported only, and no error in a
declaration has been reported. -/
structure Notes (before after : EvaluationState) : Prop where
  alike : after.Alike before
  schema : after.schema = before.schema
  occurrences : after.occurrences = before.occurrences
  diagnostics : ∃ more, after.diagnostics = before.diagnostics ++ more ∧
    ∀ diagnostic ∈ more, diagnostic.stage ≠ .schema

/-- What comes of a state by notes and by declarations that are allowed. -/
inductive Leads (allowed : Schema.Declaration → Prop) :
    EvaluationState → EvaluationState → Prop
  | noted {before after : EvaluationState} : before.Notes after → Leads allowed before after
  | declared (before : EvaluationState) (span : Span) {declaration : Schema.Declaration} :
    allowed declaration → Leads allowed before ((Evaluate.declare span declaration).run before).2
  | trans {before between after : EvaluationState} :
    Leads allowed before between → Leads allowed between after → Leads allowed before after

variable {allowed : Schema.Declaration → Prop}

/-- A state of which only the record changes. -/
theorem Leads.recorded {before after : EvaluationState} (alike : after.Alike before)
    (schema : after.schema = before.schema) (occurrences : after.occurrences = before.occurrences)
    (diagnostics : after.diagnostics = before.diagnostics) : Leads allowed before after :=
  .noted ⟨alike, schema, occurrences, [], by rw [diagnostics, List.append_nil],
    List.forall_mem_nil _⟩

theorem Leads.refl (state : EvaluationState) : Leads allowed state state :=
  .recorded (.refl _) rfl rfl rfl

/-- Notes alone are no occurrences. -/
theorem Leads.occurrences {before after : EvaluationState}
    (leads : Leads (fun _ => False) before after) : after.occurrences = before.occurrences := by
  induction leads with
  | noted notes => exact notes.occurrences
  | declared _ _ never => exact never.elim
  | trans _ _ first second => exact second.trans first

/-- **Notes and declarations are not looked at.** -/
theorem Leads.alike {before after : EvaluationState} (leads : Leads allowed before after) :
    after.Alike before := by
  induction leads with
  | noted notes => exact notes.alike
  | declared => exact ⟨rfl, rfl, rfl, rfl, rfl⟩
  | trans _ _ first second => exact second.trans first

end EvaluationState

/-! ### Steps -/

namespace Evaluate

/-- A step that makes notes and declarations that are allowed only. What it hands on depends on what
can be looked at and on nothing else. -/
structure Quiet {α : Type} (allowed : Schema.Declaration → Prop) (step : Evaluate α) : Prop where
  value : ∀ {first second : EvaluationState}, first.Alike second →
    (step.run first).1 = (step.run second).1
  leads : ∀ state : EvaluationState, state.Leads allowed (step.run state).2

variable {settings : Settings} {allowed : Schema.Declaration → Prop} {α β : Type}

theorem Quiet.alike {step : Evaluate α} (quiet : Quiet (fun _ => True) step)
    (state : EvaluationState) : (step.run state).2.Alike state := (quiet.leads state).alike

theorem quiet_pure (value : α) : Quiet allowed (pure value : Evaluate α) :=
  ⟨fun _ => rfl, fun state => .refl state⟩

/-- **Quiet steps one after the other.** -/
theorem Quiet.bind {first : Evaluate α} {next : α → Evaluate β} (here : Quiet allowed first)
    (later : ∀ value, Quiet allowed (next value)) : Quiet allowed (first >>= next) := by
  refine ⟨fun {one other} same => ?_, fun state => (here.leads state).trans ((later _).leads _)⟩
  have behind : ((first.run one).2).Alike (first.run other).2 :=
    ((here.leads one).alike.trans same).trans (here.leads other).alike.symm
  rw [StateT.run_bind, StateT.run_bind]
  change ((next (first.run one).1).run _).1 = ((next (first.run other).1).run _).1
  rw [here.value same, (later _).value behind]

/-- What is read off a state has to be what can be looked at. -/
theorem quiet_get_bind {next : EvaluationState → Evaluate β}
    (same : ∀ {first second : EvaluationState}, first.Alike second → next first = next second)
    (later : ∀ state, Quiet allowed (next state)) : Quiet allowed (get >>= next) := by
  refine ⟨fun {one other} alike => ?_, fun state => (later state).leads state⟩
  change ((next one).run one).1 = ((next other).run other).1
  rw [same alike, (later other).value alike]

/-! ### Reports -/

theorem quiet_reportAll {diagnostics : List Diagnostic}
    (others : ∀ diagnostic ∈ diagnostics, diagnostic.stage ≠ .schema) :
    Quiet allowed (reportAll diagnostics) :=
  ⟨fun _ => rfl, fun _ => .noted ⟨⟨rfl, rfl, rfl, rfl, rfl⟩, rfl, rfl, diagnostics, rfl, others⟩⟩

theorem quiet_reportError (span : Span) (message : String) :
    Quiet allowed (reportError span message) :=
  quiet_reportAll (List.forall_mem_singleton.mpr Stage.noConfusion)

theorem quiet_reportWarning (span : Span) (message : String) :
    Quiet allowed (reportWarning span message) :=
  quiet_reportAll (List.forall_mem_singleton.mpr Stage.noConfusion)

theorem quiet_ask (path : String) : Quiet allowed (ask path) :=
  ⟨fun _ => rfl, fun _ => .recorded ⟨rfl, rfl, rfl, rfl, rfl⟩ rfl rfl rfl⟩

/-! ### Expressions -/

/-- **An evaluation sees the scope and nothing else.** -/
theorem quiet_evaluateTraced (kind : TraceKind) (expression : String) (span : Span) :
    Quiet allowed (evaluateTraced settings kind expression span) := by
  refine ⟨fun {one other} same => ?_, fun _ => .recorded ⟨rfl, rfl, rfl, rfl, rfl⟩ rfl rfl rfl⟩
  change Expr.run ⟨_, fun name => one.scope.get? name⟩ _ =
    Expr.run ⟨_, fun name => other.scope.get? name⟩ _
  rw [same.scope]

theorem quiet_evaluateReported (kind : TraceKind) (expression : String) (span : Span) :
    Quiet allowed (evaluateReported settings kind expression span) := by
  refine (quiet_evaluateTraced _ _ _).bind fun result => ?_
  cases result with
  | ok value => exact quiet_pure _
  | error error => exact (quiet_reportError _ _).bind fun _ => quiet_pure _

theorem quiet_evaluateTemplate (template : Template) :
    Quiet allowed (evaluateTemplate settings template) := by
  unfold evaluateTemplate
  split
  · exact quiet_pure []
  · refine (quiet_evaluateReported _ _ _).bind fun value => ?_
    cases value with
    | none => exact quiet_pure []
    | some value => exact quiet_pure _

/-! ### Attributes -/

theorem quiet_templateValue (template : Template) :
    Quiet allowed (templateValue settings template) := by
  unfold templateValue
  split
  · exact quiet_pure none
  · exact quiet_evaluateReported _ _ _

theorem quiet_partsText (parts : List QuotedPart) : Quiet allowed (partsText settings parts) := by
  induction parts with
  | nil => exact quiet_pure _
  | cons part rest ih =>
    cases part with
    | text node =>
      rw [partsText]
      exact ih.bind fun after => quiet_pure _
    | template template =>
      rw [partsText]
      split
      · exact ih
      · refine (quiet_evaluateReported _ _ _).bind fun value => ?_
        cases value with
        | none => exact quiet_pure none
        | some value => exact ih.bind fun after => quiet_pure _

theorem quiet_quotedExpression (key : String) (quoted : Quoted) :
    Quiet allowed (quotedExpression settings key quoted) := by
  unfold quotedExpression
  split
  · exact (quiet_reportError _ _).bind fun _ => quiet_pure none
  · exact quiet_evaluateReported _ _ _

/-- **The value of an attribute.** -/
theorem quiet_attributeValue (asExpression : Bool) (pair : Attribute) :
    Quiet allowed (attributeValue settings asExpression pair) := by
  unfold attributeValue
  split
  · exact quiet_pure _
  · split
    · exact quiet_quotedExpression _ _
    · exact quiet_pure _
  · exact quiet_templateValue _
  · split
    · exact quiet_templateValue _
    · exact (quiet_partsText _).bind fun text => quiet_pure _
  · exact quiet_pure _

theorem quiet_attributeText (element : Element) (key : String) :
    Quiet allowed (attributeText settings element key) := by
  unfold attributeText
  split
  · exact quiet_pure none
  · refine (quiet_attributeValue _ _).bind fun value => ?_
    split
    · exact quiet_pure none
    · exact quiet_pure none
    · exact quiet_pure _

theorem quiet_addProps (props : Props) (pairs : List Attribute) :
    Quiet allowed (addProps settings props pairs) := by
  induction pairs generalizing props with
  | nil => exact quiet_pure props
  | cons pair rest ih =>
    rw [addProps]
    split
    · exact ih props
    · refine (quiet_attributeValue _ _).bind fun value => ?_
      cases value with
      | none => exact ih props
      | some value => exact ih _

/-- **The props of an element.** -/
theorem quiet_elementProps (component : Component) (element : Element) :
    Quiet allowed (elementProps settings component element) :=
  quiet_get_bind (fun same => by rw [same.stylesheet]) fun _ => quiet_addProps _ _

/-! ### Files -/

theorem quiet_readReported (span : Span) (text : String) (typeName : Option String) :
    Quiet allowed (readReported span text typeName) := by
  unfold readReported
  split
  · exact quiet_pure _
  · exact (quiet_reportError _ _).bind fun _ => quiet_pure none

theorem quiet_readFile (span : Span) (path : String) : Quiet allowed (readFile span path) := by
  refine (quiet_ask path).bind fun _ => quiet_get_bind (fun same => by rw [same.loader]) ?_
  intro state
  split
  · exact quiet_pure _
  · exact (quiet_reportError _ _).bind fun _ => quiet_pure none

theorem quiet_fileValue (element : Element) (pair : Attribute) (typeName : Option String) :
    Quiet allowed (fileValue settings element pair typeName) := by
  refine (quiet_attributeText _ _).bind fun source => ?_
  cases source with
  | none => exact quiet_pure none
  | some source =>
    refine quiet_get_bind (fun same => by rw [same.loader]) fun state => ?_
    refine (quiet_readFile _ _).bind fun text => ?_
    cases text with
    | none => exact quiet_pure none
    | some text => exact quiet_readReported _ _ _

theorem quiet_embedMedia (element : Element) (props : Props) :
    Quiet allowed (embedMedia settings element props) := by
  unfold embedMedia
  split
  · exact quiet_pure props
  · split
    · exact quiet_pure props
    · refine quiet_get_bind (fun same => by rw [same.loader]) fun state => ?_
      refine (quiet_ask _).bind fun _ => quiet_get_bind (fun same => by rw [same.loader]) ?_
      intro state
      split
      · exact quiet_pure _
      · exact (quiet_reportError _ _).bind fun _ => quiet_pure props

/-! ### Elements -/

theorem quiet_setSingleSpeaker (single : Bool) : Quiet allowed (setSingleSpeaker single) :=
  ⟨fun _ => rfl, fun _ => .recorded ⟨rfl, rfl, rfl, rfl, rfl⟩ rfl rfl rfl⟩

theorem quiet_resolveElement (element : Element) : Quiet allowed (resolveElement element) := by
  refine quiet_get_bind (fun same => by rw [same.registry]) fun state => ?_
  split
  · exact quiet_pure _
  · exact (quiet_reportAll (List.forall_mem_singleton.mpr Stage.noConfusion)).bind fun _ =>
      quiet_pure _

theorem quiet_conditionHolds (element : Element) :
    Quiet allowed (conditionHolds settings element) := by
  unfold conditionHolds
  split
  · exact quiet_pure true
  · refine (quiet_attributeValue _ _).bind fun value => ?_
    split
    · exact quiet_pure false
    · exact quiet_pure _
    · exact (quiet_reportError _ _).bind fun _ => quiet_pure false

theorem quiet_loopItems (iterator : ForIterator) : Quiet allowed (loopItems settings iterator) := by
  refine (quiet_evaluateReported _ _ _).bind fun value => ?_
  split
  · exact quiet_pure []
  · exact quiet_pure _
  · exact (quiet_reportError _ _).bind fun _ => quiet_pure []

/-! ### Declarations -/

theorem quiet_declare (span : Span) {declaration : Schema.Declaration}
    (fits : allowed declaration) : Quiet allowed (declare span declaration) :=
  ⟨fun _ => rfl, fun state => .declared state span fits⟩

theorem quiet_schemaOfExpression (body : String) (start : Nat) :
    Quiet allowed (schemaOfExpression settings body start) := by
  refine (quiet_evaluateTraced _ _ _).bind fun result => ?_
  cases result with
  | ok value => exact quiet_pure _
  | error error => exact quiet_pure _

/-- Steps that may fail, one after the other. -/
theorem quiet_run_bind {first : ExceptT ExprError Evaluate α}
    {next : α → ExceptT ExprError Evaluate β} (here : Quiet allowed first.run)
    (later : ∀ value, Quiet allowed (next value).run) : Quiet allowed (first >>= next).run := by
  rw [ExceptT.run_bind]
  refine here.bind fun result => ?_
  cases result with
  | ok value => exact later value
  | error error => exact quiet_pure _

theorem quiet_partTexts {evaluate : String → Span → ExceptT ExprError Evaluate Value}
    (each : ∀ expression span, Quiet allowed (evaluate expression span).run)
    (parts : List Schema.BodyPart) : Quiet allowed (parts.mapM (Schema.partText evaluate)).run := by
  induction parts with
  | nil => exact quiet_pure _
  | cons part rest ih =>
    have here : Quiet allowed (Schema.partText evaluate part).run := by
      cases part with
      | text chars => exact quiet_pure _
      | template expression span =>
        exact quiet_run_bind (each expression span) fun value => quiet_pure _
    rw [List.mapM_cons]
    exact quiet_run_bind here fun text => quiet_run_bind ih fun texts => quiet_pure _

theorem quiet_schemaOfJson (body : String) (start : Nat) :
    Quiet allowed (schemaOfJson settings body start) := by
  refine .bind (quiet_run_bind (quiet_partTexts (fun expression span => ?_) _) fun texts =>
    quiet_pure _) fun result => ?_
  · exact quiet_evaluateTraced _ _ _
  · split
    · exact quiet_pure _
    · split
      · exact quiet_pure _
      · exact quiet_pure _

theorem quiet_declaredSchema (refuses : ∀ message, allowed (.refused message)) (element : Element)
    (parser : Schema.SchemaParser) : Quiet allowed (declaredSchema settings element parser) := by
  have refused : ∀ (message : String) (span : Span), Quiet allowed (do
      failSchema span message
      return (none : Option Schema.SchemaDocument)) := fun _ _ =>
    (quiet_declare _ (refuses _)).bind fun _ => quiet_pure none
  unfold declaredSchema
  simp only
  split
  · exact refused _ _
  · split
    · refine (quiet_schemaOfExpression _ _).bind fun result => ?_
      cases result with
      | ok schema => exact quiet_pure _
      | error error => exact refused _ _
    · refine (quiet_schemaOfJson _ _).bind fun result => ?_
      cases result with
      | ok schema => exact quiet_pure _
      | error error => exact refused _ _

theorem quiet_declaredParser (refuses : ∀ message, allowed (.refused message))
    (element : Element) : Quiet allowed (declaredParser settings element) := by
  refine (quiet_attributeText _ _).bind fun text => ?_
  cases text with
  | none => exact quiet_pure _
  | some text =>
    simp only
    split
    · exact quiet_pure _
    · exact (quiet_declare _ (refuses _)).bind fun _ => quiet_pure none

/-- **An element that declares a schema.** -/
theorem quiet_evaluateSchema (any : ∀ declaration, allowed declaration) (isTool : Bool)
    (element : Element) : Quiet allowed (evaluateSchema settings isTool element) := by
  refine (quiet_declaredParser (fun _ => any _) _).bind fun parser => ?_
  cases parser with
  | none => exact quiet_pure ()
  | some parser =>
    refine (quiet_declaredSchema (fun _ => any _) _ _).bind fun schema => ?_
    cases schema with
    | none => exact quiet_pure ()
    | some schema =>
      simp only
      split
      · refine (quiet_attributeText _ _).bind fun name => ?_
        exact (quiet_attributeText _ _).bind fun description =>
          quiet_declare _ (any _)
      · exact quiet_declare _ (any _)

/-- **Runtime parameters.** -/
theorem quiet_evaluateRuntime (any : ∀ declaration, allowed declaration)
    (pairs : List Attribute) : Quiet allowed (evaluateRuntime settings pairs) := by
  induction pairs with
  | nil => exact quiet_pure ()
  | cons pair rest ih =>
    rw [evaluateRuntime]
    split
    · exact ih
    · refine (quiet_attributeValue _ _).bind fun value => ?_
      cases value with
      | none => exact ih
      | some value => exact (quiet_declare _ (any _)).bind fun _ => ih

end Evaluate

end PromptMarkup
