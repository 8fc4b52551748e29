/-
**What the steps of an evaluation keep.**

A step of an evaluation evaluates expressions and reports faults at certain places, it restores the
scope that it found apart from names bound in the innermost frame, and it never changes which
component a tag stands for. A relation between the states before and after a step that allows for
just this holds of every step.

* `Registry.Resembles`: registries with the same components, of which others may be enabled;
* `Conduct`: a relation that evaluations and reports at the places allowed keep;
* `Conduct.Keeps`: a step that keeps it; `Keeps.bind` puts steps together;
* `keeps_attributeValue`, `keeps_elementProps`, `keeps_evaluateBinding`, `keeps_evaluateSchema` and
  others: the steps that elements are evaluated in.
-/

import PromptMarkup.Evaluation.Document
import PromptMarkup.Proofs.Evaluation.Journal

namespace PromptMarkup

open Markup

/-! ### Components -/

namespace Registry

/-- Two registries hold the same components in the same order. -/
def Resembles (first second : Registry) : Prop :=
  first.entries.map RegistryEntry.component = second.entries.map RegistryEntry.component

/-- The component that a tag stands for, whether it is enabled or not. -/
def named? (registry : Registry) (tag : String) : Option Component :=
  (registry.entry? tag).map RegistryEntry.component

variable {registry other : Registry} {tag : String}

theorem Resembles.refl (registry : Registry) : registry.Resembles registry := rfl

theorem Resembles.trans {third : Registry} (first : registry.Resembles other)
    (second : other.Resembles third) : registry.Resembles third := Eq.trans first second

/-- The same tags stand for the same components. -/
theorem Resembles.named? (same : registry.Resembles other) (tag : String) :
    registry.named? tag = other.named? tag := by
  have find : ∀ registry : Registry, registry.named? tag =
      (registry.entries.map RegistryEntry.component).find? fun component =>
        Markup.normalizeName tag ∈ component.keys := by
    intro registry
    rw [List.find?_map]
    rfl
  rw [find, find, same]

theorem named?_of_lookup {component : Component} (found : registry.lookup tag = some component) :
    registry.named? tag = some component := by
  obtain ⟨entry, enabled, rfl⟩ := Option.map_eq_some_iff.mp found
  obtain ⟨here, _⟩ := Option.filter_eq_some_iff.mp enabled
  rw [named?, here]
  rfl

/-- **Switching a component on or off replaces none.** -/
theorem resembles_setEnabled {enabled : Bool}
    (switched : registry.setEnabled tag enabled = some other) : other.Resembles registry := by
  have first : ∀ entries, (setFirst tag enabled entries).map RegistryEntry.component =
      entries.map RegistryEntry.component := by
    intro entries
    induction entries with
    | nil => rfl
    | cons entry rest ih =>
      rw [setFirst]
      split
      · rfl
      · rw [List.map_cons, ih, List.map_cons]
  unfold setEnabled at switched
  split at switched
  · obtain rfl := Option.some.inj switched
    exact first registry.entries
  · cases switched

end Registry

/-! ### Relations between states -/

/-- How much of the scope a step leaves as it is. -/
inductive Reach where
  /-- All of it. -/
  | whole
  /-- All frames but the innermost one, which may get more names. -/
  | outer

/-- A state differs from another one neither in what is seen, recorded and reported nor in what tags
stand for. -/
structure EvaluationState.Matches (after before : EvaluationState) : Prop where
  scope : after.scope = before.scope
  loader : after.loader = before.loader
  trace : after.trace = before.trace
  events : after.events = before.events
  diagnostics : after.diagnostics = before.diagnostics
  registry : after.registry.Resembles before.registry

/-- A relation between the states before and after a step, for steps that leave all of the scope as
it is and for those that may bind names. Evaluations at the places allowed and reports at places
keep it. -/
structure Conduct (registry : Registry) (allowed : TraceKey → Prop) (places : Span → Prop) where
  keeps : Reach → EvaluationState → EvaluationState → Prop
  trans : ∀ {reach first second third}, keeps reach first second → keeps reach second third →
    keeps reach first third
  resembles : ∀ {reach before after}, keeps reach before after →
    after.registry.Resembles before.registry
  matching : ∀ {reach before after}, after.Matches before → keeps reach before after
  evaluated : ∀ {reach} state key value, allowed key → keeps reach state { state with
    trace := state.trace.record key.span key.expression key.kind value
    events := state.events ++ [.evaluated key.span key.expression key.kind value] }
  reported : ∀ {reach} state diagnostics, (∀ diagnostic ∈ diagnostics, places diagnostic.span) →
    keeps reach state { state with diagnostics := state.diagnostics ++ diagnostics }
  bound : ∀ state name value, keeps .outer state { state with scope := state.scope.set name value }
  framed : ∀ {reach before after} frame,
    keeps .outer { before with scope := before.scope.push frame } after →
      keeps reach before { after with scope := after.scope.pop }

namespace Conduct

variable {registry : Registry} {allowed : TraceKey → Prop} {places : Span → Prop}
  {conduct : Conduct registry allowed places} {reach : Reach} {α β : Type}

/-- A step keeps a relation where tags stand for the components of a registry. -/
def Keeps (conduct : Conduct registry allowed places) (reach : Reach) (step : Evaluate α) : Prop :=
  ∀ state, state.registry.Resembles registry → conduct.keeps reach state (step.run state).2

theorem keeps_of_matches {step : Evaluate α}
    (same : ∀ state, (step.run state).2.Matches state) : conduct.Keeps reach step :=
  fun state _ => conduct.matching (same state)

theorem keeps_pure (value : α) : conduct.Keeps reach (pure value) :=
  keeps_of_matches fun _ => ⟨rfl, rfl, rfl, rfl, rfl, .refl _⟩

/-- What comes behind a step may depend on what it hands on from a certain state. -/
theorem Keeps.run_bind {first : Evaluate α} {next : α → Evaluate β} {state : EvaluationState}
    (here : conduct.Keeps reach first) (same : state.registry.Resembles registry)
    (later : conduct.Keeps reach (next (first.run state).1)) :
    conduct.keeps reach state ((first >>= next).run state).2 := by
  have kept := here state same
  exact conduct.trans kept (later _ ((conduct.resembles kept).trans same))

/-- **Steps one after the other.** -/
theorem Keeps.bind {first : Evaluate α} {next : α → Evaluate β} (here : conduct.Keeps reach first)
    (later : ∀ value, conduct.Keeps reach (next value)) : conduct.Keeps reach (first >>= next) :=
  fun _ same => here.run_bind same (later _)

/-- What is read off a state is read off one with the same components. -/
theorem keeps_get_bind {next : EvaluationState → Evaluate β}
    (later : ∀ state, state.registry.Resembles registry → conduct.Keeps reach (next state)) :
    conduct.Keeps reach (get >>= next) :=
  fun state same => later state same state same

end Conduct

namespace Evaluate

open Conduct

variable {settings : Settings} {registry : Registry} {allowed : TraceKey → Prop}
  {places : Span → Prop} {conduct : Conduct registry allowed places} {reach : Reach}
  {α : Type}

/-! ### Small steps -/

theorem keeps_reportAll {diagnostics : List Diagnostic}
    (shown : ∀ diagnostic ∈ diagnostics, places diagnostic.span) :
    conduct.Keeps reach (reportAll diagnostics) :=
  fun state _ => conduct.reported state diagnostics shown

theorem keeps_reportError {span : Span} (message : String) (shown : places span) :
    conduct.Keeps reach (reportError span message) :=
  keeps_reportAll (List.forall_mem_singleton.mpr shown)

theorem keeps_reportWarning {span : Span} (message : String) (shown : places span) :
    conduct.Keeps reach (reportWarning span message) :=
  keeps_reportAll (List.forall_mem_singleton.mpr shown)

theorem keeps_identified (value : Value) : conduct.Keeps reach (identified value) :=
  keeps_of_matches fun _ => ⟨rfl, rfl, rfl, rfl, rfl, .refl _⟩

/-- **A name that is bound** is bound in the innermost frame. -/
theorem keeps_bindName (name : String) (value : Value) :
    conduct.Keeps .outer (bindName name value) :=
  (keeps_identified value).bind fun value state _ => conduct.bound state name value

theorem keeps_lending {step : Evaluate α} (inside : conduct.Keeps reach step) :
    conduct.Keeps reach (lending step) :=
  fun state same => conduct.trans (inside state same)
    (conduct.matching ⟨rfl, rfl, rfl, rfl, rfl, .refl _⟩)

/-- **A frame is left with all that is bound in it.** -/
theorem keeps_inFrame (frame : Frame) {step : Evaluate α} (inside : conduct.Keeps .outer step) :
    conduct.Keeps reach (inFrame frame step) :=
  keeps_lending fun _ same => conduct.framed frame (inside _ same)

theorem keeps_ask (path : String) : conduct.Keeps reach (ask path) :=
  keeps_of_matches fun _ => ⟨rfl, rfl, rfl, rfl, rfl, .refl _⟩

theorem keeps_collect {step : Schema.Collector → Schema.Collector × List Diagnostic}
    (shown : ∀ collector, ∀ diagnostic ∈ (step collector).2, places diagnostic.span) :
    conduct.Keeps reach (collect step) :=
  fun state _ => conduct.trans (conduct.reported state _ (shown state.schema))
    (conduct.matching ⟨rfl, rfl, rfl, rfl, rfl, .refl _⟩)

/-- What a declaration is refused for is reported at the element. -/
theorem span_of_mem_addTool {collector : Schema.Collector} {name description : Option String}
    {parameters : Schema.SchemaDocument} {span : Span} {diagnostic : Diagnostic}
    (member : diagnostic ∈ (collector.addTool name description parameters span).2) :
    diagnostic.span = span := by
  unfold Schema.Collector.addTool at member
  simp only at member
  split at member
  · rw [List.mem_singleton.mp member]
    rfl
  · cases member

/-- A second schema of the response is reported at the element that declares it. -/
theorem span_of_mem_setResponse {collector : Schema.Collector} {schema : Schema.SchemaDocument}
    {span : Span} {diagnostic : Diagnostic}
    (member : diagnostic ∈ (collector.setResponse schema span).2) : diagnostic.span = span := by
  unfold Schema.Collector.setResponse at member
  split at member
  · rw [List.mem_singleton.mp member]
    rfl
  · cases member

/-- **A declaration** is reported at most at the range it is given with. -/
theorem keeps_declare {span : Span} (declaration : Schema.Declaration) (shown : places span) :
    conduct.Keeps reach (declare span declaration) := by
  refine .bind (keeps_of_matches fun _ => ⟨rfl, rfl, rfl, rfl, rfl, .refl _⟩) fun _ => ?_
  refine keeps_collect fun collector diagnostic member => ?_
  suffices same : diagnostic.span = span from same ▸ shown
  cases declaration with
  | refused message => exact congrArg Diagnostic.span (List.mem_singleton.mp member)
  | response schema => exact span_of_mem_setResponse member
  | tool name description parameters => exact span_of_mem_addTool member
  | parameter key value => cases member

theorem keeps_failSchema {span : Span} (message : String) (shown : places span) :
    conduct.Keeps reach (failSchema span message) := keeps_declare _ shown

/-! ### Expressions -/

/-- **An evaluation at a place that is allowed.** -/
theorem keeps_evaluateTraced {span : Span} {expression : String} {kind : TraceKind}
    (here : allowed ⟨span, expression, kind⟩) :
    conduct.Keeps reach (evaluateTraced settings kind expression span) :=
  fun state _ => conduct.evaluated state ⟨span, expression, kind⟩ _ here

theorem keeps_evaluateReported {span : Span} {expression : String} {kind : TraceKind}
    (here : allowed ⟨span, expression, kind⟩) (shown : places span) :
    conduct.Keeps reach (evaluateReported settings kind expression span) := by
  refine (keeps_evaluateTraced here).bind fun result => ?_
  cases result with
  | ok value => exact keeps_pure _
  | error error => exact (keeps_reportError _ shown).bind fun _ => keeps_pure _

end Evaluate

/-! ### Places -/

/-- The record of a template. -/
def templateKey (kind : TraceKind) (template : Template) : TraceKey :=
  ⟨template.span, template.expression, kind⟩

/-- The places of the templates among the parts of a value. -/
def partKeys (parts : List QuotedPart) : List TraceKey :=
  parts.filterMap fun
    | .text _ => none
    | .template template => some (templateKey .attributeExpression template)

/-- The places that an attribute may be evaluated at. -/
def attributeKeys (pair : Attribute) : List TraceKey :=
  match pair.value with
  | none => []
  | some (.quoted quoted) => [⟨quoted.valueSpan, quoted.value, .attributeExpression⟩]
  | some (.quotedTemplate quoted) => partKeys quoted.parts
  | some (.template template) => [templateKey .attributeExpression template]
  | some (.forIterator iterator) =>
    [⟨iterator.collectionSpan, iterator.collection, .attributeExpression⟩]

/-- The place of a body that is an expression; the body starts at an offset. -/
def expressionKey (body : String) (start : Nat) : TraceKey :=
  let declared := Schema.declaredExpression body
  ⟨⟨start + declared.2, start + declared.2 + Text.byteLength declared.1.toList⟩, declared.1,
    .evalBlock⟩

/-- The places of the templates in a body in JSON; the body starts at an offset. -/
def bodyKeys (body : String) (start : Nat) : List TraceKey :=
  (Schema.bodyParts body).filterMap fun
    | .text _ => none
    | .template expression span => some ⟨span.shift start, expression, .template⟩

/-- The places that the body of a declaration may be evaluated at, as an expression or as JSON. -/
def schemaKeys (element : Element) : List TraceKey :=
  let declaration := Evaluate.declarationBody element
  expressionKey declaration.1 declaration.2.start :: bodyKeys declaration.1 declaration.2.start

/-- The tag of an element stands for a component of a kind. -/
def Registry.Names (registry : Registry) (element : Element) (kind : ComponentKind) : Prop :=
  ∃ component, registry.named? element.name = some component ∧ component.kind = kind

/-- An attribute is evaluated and reported at places allowed. -/
structure Markup.Attribute.IsAllowed (allowed : TraceKey → Prop) (places : Span → Prop)
    (pair : Attribute) : Prop where
  keys : ∀ key ∈ attributeKeys pair, allowed key ∧ places key.span
  value : places (Evaluate.valueSpan pair)
  whole : places pair.span

/-- An element is reported at places allowed besides its attributes. -/
structure Markup.Element.IsReported (places : Span → Prop) (element : Element) : Prop where
  whole : places element.span
  opening : places element.opening.span
  name : places element.opening.nameSpan
  body : places element.bodySpan
  declared : places (Evaluate.declarationBody element).2

/-- Everything that an element has evaluated and reported besides what it contains is at places
allowed. -/
structure IsAllowed (registry : Registry) (allowed : TraceKey → Prop) (places : Span → Prop)
    (element : Element) : Prop where
  attributes : ∀ pair ∈ element.opening.attributes, pair.IsAllowed allowed places
  schema : registry.Names element .outputSchema ∨ registry.Names element .toolDefinition →
    ∀ key ∈ schemaKeys element, allowed key
  reports : element.IsReported places

theorem Markup.Element.isReported_anywhere (element : Element) :
    element.IsReported fun _ => True :=
  ⟨trivial, trivial, trivial, trivial, trivial⟩

theorem isAllowed_anywhere (registry : Registry) (element : Element) :
    IsAllowed registry (fun _ => True) (fun _ => True) element :=
  ⟨fun _ _ => ⟨fun _ _ => ⟨trivial, trivial⟩, trivial, trivial⟩, fun _ _ _ => trivial,
    element.isReported_anywhere⟩

namespace Evaluate

open Conduct

variable {settings : Settings} {registry : Registry} {allowed : TraceKey → Prop}
  {places : Span → Prop} {conduct : Conduct registry allowed places} {reach : Reach}

/-! ### Attributes -/

theorem keeps_evaluateAttribute {expression : String} {span : Span}
    (here : allowed ⟨span, expression, .attributeExpression⟩ ∧ places span) :
    conduct.Keeps reach (evaluateAttribute settings expression span) :=
  keeps_evaluateReported here.1 here.2

theorem keeps_templateValue {template : Template}
    (here : allowed (templateKey .attributeExpression template) ∧ places template.span) :
    conduct.Keeps reach (templateValue settings template) := by
  unfold templateValue
  split
  · exact keeps_pure none
  · exact keeps_evaluateAttribute here

theorem keeps_partsText {parts : List QuotedPart}
    (all : ∀ key ∈ partKeys parts, allowed key ∧ places key.span) :
    conduct.Keeps reach (partsText settings parts) := by
  induction parts with
  | nil => exact keeps_pure _
  | cons part rest ih =>
    cases part with
    | text node =>
      rw [partsText]
      exact (ih all).bind fun after => keeps_pure _
    | template template =>
      obtain ⟨here, later⟩ := List.forall_mem_cons.mp all
      rw [partsText]
      split
      · exact ih later
      · refine (keeps_evaluateAttribute here).bind fun value => ?_
        cases value with
        | none => exact keeps_pure none
        | some value => exact (ih later).bind fun after => keeps_pure _

theorem keeps_quotedExpression (key : String) {quoted : Quoted}
    (here : allowed ⟨quoted.valueSpan, quoted.value, .attributeExpression⟩ ∧
      places quoted.valueSpan) (shown : places quoted.span) :
    conduct.Keeps reach (quotedExpression settings key quoted) := by
  unfold quotedExpression
  split
  · exact (keeps_reportError _ shown).bind fun _ => keeps_pure none
  · exact keeps_evaluateAttribute here

/-- The only template of a value is one of its parts. -/
theorem mem_partKeys_of_soleTemplate? {quoted : QuotedTemplate} {template : Template}
    (found : quoted.soleTemplate? = some template) :
    templateKey .attributeExpression template ∈ partKeys quoted.parts := by
  unfold QuotedTemplate.soleTemplate? at found
  split at found
  next node only =>
    obtain rfl := Option.some.inj found
    rw [only]
    exact List.mem_cons_self
  next => cases found

/-- **The value of an attribute.** -/
theorem keeps_attributeValue (asExpression : Bool) {pair : Attribute}
    (fits : pair.IsAllowed allowed places) :
    conduct.Keeps reach (attributeValue settings asExpression pair) := by
  obtain ⟨keys, shown, _⟩ := fits
  unfold attributeKeys at keys
  unfold valueSpan at shown
  unfold attributeValue
  split
  · exact keeps_pure _
  next quoted same =>
    rw [same] at keys shown
    split
    · exact keeps_quotedExpression pair.key (keys _ List.mem_cons_self) shown
    · exact keeps_pure _
  next template same =>
    rw [same] at keys
    exact keeps_templateValue (keys _ List.mem_cons_self)
  next quoted same =>
    rw [same] at keys
    split
    next template found =>
      exact keeps_templateValue (keys _ (mem_partKeys_of_soleTemplate? found))
    next => exact (keeps_partsText keys).bind fun text => keeps_pure _
  next => exact keeps_pure _

theorem mem_of_attribute? {element : Element} {key : String} {pair : Attribute}
    (found : element.attribute? key = some pair) : pair ∈ element.opening.attributes :=
  List.mem_of_find?_eq_some found

section Elements

variable {element : Element}

theorem keeps_attributeText (fits : IsAllowed registry allowed places element) (key : String) :
    conduct.Keeps reach (attributeText settings element key) := by
  unfold attributeText
  split
  · exact keeps_pure none
  next pair found =>
    refine (keeps_attributeValue false (fits.attributes pair (mem_of_attribute? found))).bind
      fun value => ?_
    split
    · exact keeps_pure none
    · exact keeps_pure none
    · exact keeps_pure _

/-- The range of an attribute is one of those allowed if the range that stands in for it is. -/
theorem IsAllowed.attributeSpan (fits : IsAllowed registry allowed places element) (key : String)
    {default : Span} (shown : places default) :
    places (Evaluate.attributeSpan element key default) := by
  unfold Evaluate.attributeSpan
  cases found : element.attribute? key with
  | none => exact shown
  | some pair => exact (fits.attributes pair (mem_of_attribute? found)).value

theorem keeps_addProps {pairs : List Attribute}
    (all : ∀ pair ∈ pairs, pair.IsAllowed allowed places) (props : Props) :
    conduct.Keeps reach (addProps settings props pairs) := by
  induction pairs generalizing props with
  | nil => exact keeps_pure props
  | cons pair rest ih =>
    obtain ⟨here, later⟩ := List.forall_mem_cons.mp all
    rw [addProps]
    split
    · exact ih later props
    · refine (keeps_attributeValue false here).bind fun value => ?_
      cases value with
      | none => exact ih later props
      | some value => exact ih later _

/-- **The props of an element.** -/
theorem keeps_elementProps (component : Component)
    (fits : IsAllowed registry allowed places element) :
    conduct.Keeps reach (elementProps settings component element) :=
  keeps_get_bind fun _ _ => keeps_addProps fits.attributes _

/-! ### Bindings -/

theorem keeps_readReported {span : Span} (text : String) (typeName : Option String)
    (shown : places span) : conduct.Keeps reach (readReported span text typeName) := by
  unfold readReported
  split
  · exact keeps_pure _
  · exact (keeps_reportError _ shown).bind fun _ => keeps_pure none

theorem keeps_readFile {span : Span} (path : String) (shown : places span) :
    conduct.Keeps reach (readFile span path) := by
  unfold readFile
  refine (keeps_ask path).bind fun _ => keeps_get_bind fun state _ => ?_
  split
  · exact keeps_pure _
  · exact (keeps_reportError _ shown).bind fun _ => keeps_pure none

theorem keeps_fileValue (fits : IsAllowed registry allowed places element) {pair : Attribute}
    (typeName : Option String) (shown : places (valueSpan pair)) :
    conduct.Keeps reach (fileValue settings element pair typeName) := by
  unfold fileValue
  refine (keeps_attributeText fits "src").bind fun source => ?_
  cases source with
  | none => exact keeps_pure none
  | some source =>
    refine keeps_get_bind fun state _ => (keeps_readFile _ shown).bind fun text => ?_
    cases text with
    | none => exact keeps_pure none
    | some text => exact keeps_readReported _ _ shown

theorem keeps_boundValue (fits : IsAllowed registry allowed places element)
    {body : Evaluate (List ComponentChild)} (inside : conduct.Keeps reach body)
    (typeName : Option String) :
    conduct.Keeps reach (boundValue settings element body typeName) := by
  unfold boundValue
  cases value : element.attribute? "value" with
  | some pair => exact keeps_attributeValue true (fits.attributes pair (mem_of_attribute? value))
  | none =>
    cases source : element.attribute? "src" with
    | some pair =>
      exact keeps_fileValue fits typeName (fits.attributes pair (mem_of_attribute? source)).value
    | none => exact inside.bind fun children => keeps_readReported _ _ fits.reports.body

theorem keeps_bindNames (fields : Frame) : conduct.Keeps .outer (bindNames fields) := by
  induction fields with
  | nil => exact keeps_pure ()
  | cons field rest ih =>
    obtain ⟨name, value⟩ := field
    exact (keeps_bindName name value).bind fun _ => ih

/-- **An element that binds names** binds them in the innermost frame. -/
theorem keeps_evaluateBinding (fits : IsAllowed registry allowed places element)
    {body : Evaluate (List ComponentChild)} (inside : conduct.Keeps .outer body) :
    conduct.Keeps .outer (evaluateBinding settings element body) := by
  unfold evaluateBinding
  refine (keeps_attributeText fits "name").bind fun name => ?_
  refine (keeps_attributeText fits "type").bind fun typeName => ?_
  refine (keeps_boundValue fits inside typeName).bind fun value => ?_
  split
  · exact keeps_pure ()
  · exact keeps_bindName _ _
  · exact keeps_bindNames _
  · exact keeps_reportError _ fits.reports.opening

end Elements

/-! ### Declarations -/

theorem keeps_schemaOfExpression {body : String} {start : Nat}
    (here : allowed (expressionKey body start)) :
    conduct.Keeps reach (schemaOfExpression settings body start) := by
  unfold schemaOfExpression
  refine (keeps_evaluateTraced here).bind fun result => ?_
  cases result with
  | ok value => exact keeps_pure _
  | error error => exact keeps_pure _

/-- Steps that may fail, one after the other. -/
theorem keeps_run_bind {α β : Type} {first : ExceptT ExprError Evaluate α}
    {next : α → ExceptT ExprError Evaluate β} (here : conduct.Keeps reach first.run)
    (later : ∀ value, conduct.Keeps reach (next value).run) :
    conduct.Keeps reach (first >>= next).run := by
  rw [ExceptT.run_bind]
  refine here.bind fun result => ?_
  cases result with
  | ok value => exact later value
  | error error => exact keeps_pure _

/-- **The parts of a body in JSON** are evaluated one by one, up to the first that fails. -/
theorem keeps_partTexts {parts : List Schema.BodyPart}
    {evaluate : String → Span → ExceptT ExprError Evaluate Value}
    (all : ∀ expression span, .template expression span ∈ parts →
      conduct.Keeps reach (evaluate expression span).run) :
    conduct.Keeps reach (parts.mapM (Schema.partText evaluate)).run := by
  induction parts with
  | nil => exact keeps_pure _
  | cons part rest ih =>
    have later := ih fun expression span member =>
      all expression span (List.mem_cons_of_mem _ member)
    have here : conduct.Keeps reach (Schema.partText evaluate part).run := by
      cases part with
      | text chars => exact keeps_pure _
      | template expression span =>
        exact keeps_run_bind (all expression span List.mem_cons_self) fun value => keeps_pure _
    rw [List.mapM_cons]
    exact keeps_run_bind here fun text => keeps_run_bind later fun texts => keeps_pure _

theorem keeps_schemaOfJson {body : String} {start : Nat}
    (all : ∀ key ∈ bodyKeys body start, allowed key) :
    conduct.Keeps reach (schemaOfJson settings body start) := by
  unfold schemaOfJson
  refine .bind (keeps_run_bind (keeps_partTexts fun expression span member => ?_) fun texts =>
    keeps_pure _) fun result => ?_
  · refine keeps_evaluateTraced (all _ ?_)
    exact List.mem_filterMap.mpr ⟨_, member, rfl⟩
  · split
    · exact keeps_pure _
    · split
      · exact keeps_pure _
      · exact keeps_pure _

section Declarations

variable {element : Element}

theorem keeps_declaredSchema (parser : Schema.SchemaParser) (reports : element.IsReported places)
    (all : ∀ key ∈ schemaKeys element, allowed key) :
    conduct.Keeps reach (declaredSchema settings element parser) := by
  obtain ⟨asExpression, asJson⟩ := List.forall_mem_cons.mp all
  have whole := reports.whole
  have declared := reports.declared
  unfold declaredSchema
  generalize declarationBody element = declaration at asExpression asJson declared ⊢
  obtain ⟨body, span⟩ := declaration
  simp only at asExpression asJson declared ⊢
  split
  · exact (keeps_failSchema _ whole).bind fun _ => keeps_pure none
  · split
    · refine (keeps_schemaOfExpression asExpression).bind fun result => ?_
      cases result with
      | ok schema => exact keeps_pure _
      | error error => exact (keeps_failSchema _ declared).bind fun _ => keeps_pure none
    · refine (keeps_schemaOfJson asJson).bind fun result => ?_
      cases result with
      | ok schema => exact keeps_pure _
      | error error => exact (keeps_failSchema _ declared).bind fun _ => keeps_pure none

theorem keeps_declaredParser (fits : IsAllowed registry allowed places element) :
    conduct.Keeps reach (declaredParser settings element) := by
  unfold declaredParser
  refine (keeps_attributeText fits "parser").bind fun text => ?_
  cases text with
  | none => exact keeps_pure _
  | some text =>
    simp only
    split
    · exact keeps_pure _
    · have shown := IsAllowed.attributeSpan fits "parser" fits.reports.whole
      exact (keeps_failSchema _ shown).bind fun _ => keeps_pure none

/-- **An element that declares a schema.** -/
theorem keeps_evaluateSchema (isTool : Bool) (fits : IsAllowed registry allowed places element)
    (all : ∀ key ∈ schemaKeys element, allowed key) :
    conduct.Keeps reach (evaluateSchema settings isTool element) := by
  unfold evaluateSchema
  refine (keeps_declaredParser fits).bind fun parser => ?_
  cases parser with
  | none => exact keeps_pure ()
  | some parser =>
    refine (keeps_declaredSchema parser fits.reports all).bind fun schema => ?_
    cases schema with
    | none => exact keeps_pure ()
    | some schema =>
      simp only
      split
      · refine (keeps_attributeText fits "name").bind fun name => ?_
        refine (keeps_attributeText fits "description").bind fun description => ?_
        exact keeps_declare _ fits.reports.whole
      · exact keeps_declare _ fits.reports.whole

/-- **Runtime parameters.** -/
theorem keeps_evaluateRuntime {pairs : List Attribute}
    (all : ∀ pair ∈ pairs, pair.IsAllowed allowed places) :
    conduct.Keeps reach (evaluateRuntime settings pairs) := by
  induction pairs with
  | nil => exact keeps_pure ()
  | cons pair rest ih =>
    obtain ⟨here, later⟩ := List.forall_mem_cons.mp all
    rw [evaluateRuntime]
    split
    · exact ih later
    · refine (keeps_attributeValue false here).bind fun value => ?_
      cases value with
      | none => exact ih later
      | some value => exact (keeps_declare _ here.whole).bind fun _ => ih later

end Declarations

end Evaluate

end PromptMarkup
