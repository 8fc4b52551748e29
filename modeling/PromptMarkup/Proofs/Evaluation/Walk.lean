/-
**What whole documents keep.**

A relation that is kept at every element is kept along a document: elements are evaluated in their
order, and as often as their loops say.

* `keeps_applyPragma`, `keeps_addStylesheets`, `keeps_embedMedia`: what evaluates nothing;
* `keeps_expandElement`: an element, with its condition and its loop;
* `keeps_walkContents`: contents one after the other;
* `keeps_evaluateFile`: a file, as long as everything in it is at places allowed;
* `keeps_evaluateInclude`: an element that includes a file, up to where the file is entered;
* `Invariant`, `Invariant.conduct`: a property of states that depends on the trace, its history and
  the components only, and the relation that it is kept;
* `kept_evaluateFile`: a file keeps a property.
-/

import PromptMarkup.Proofs.Evaluation.Conduct
import PromptMarkup.Proofs.Markup.NodePlaces

namespace PromptMarkup

open Markup

/-! ### Elements -/

namespace Registry

/-- The component that a tag is evaluated as. -/
def resolve (registry : Registry) (tag : String) : Component :=
  (registry.lookup tag).getD genericComponent

/-- The tag of an element names this component, or the component is the generic one. -/
def Resolves (registry : Registry) (element : Element) (component : Component) : Prop :=
  registry.named? element.name = some component ∨ component = genericComponent

variable {registry other : Registry} {element : Element}

theorem Resolves.names {component : Component} {kind : ComponentKind}
    (resolved : registry.Resolves element component) (same : component.kind = kind)
    (special : kind ≠ .generic) : registry.Names element kind := by
  rcases resolved with found | rfl
  · exact ⟨component, found, same⟩
  · exact absurd same.symm special

/-- What a tag is evaluated as is the component that it names. -/
theorem resolves_resolve (same : other.Resembles registry) (element : Element) :
    registry.Resolves element (other.resolve element.name) := by
  unfold resolve
  cases found : other.lookup element.name with
  | none => exact .inr rfl
  | some component =>
    refine .inl ?_
    rw [← same.named?]
    exact named?_of_lookup found

end Registry

namespace Evaluate

open Conduct

variable {settings : Settings} {registry : Registry} {allowed : TraceKey → Prop}
  {places : Span → Prop} {conduct : Conduct registry allowed places} {reach : Reach}

/-! ### Media, pragmas and stylesheets -/

theorem keeps_embedMedia {element : Element} (props : Props)
    (fits : IsAllowed registry allowed places element) :
    conduct.Keeps reach (embedMedia settings element props) := by
  unfold embedMedia
  split
  · exact keeps_pure props
  · split
    · exact keeps_pure props
    · refine keeps_get_bind fun state _ => (keeps_ask _).bind fun _ => ?_
      refine keeps_get_bind fun state _ => ?_
      split
      · exact keeps_pure _
      · have shown := IsAllowed.attributeSpan fits "src" fits.reports.opening
        exact (keeps_reportError _ shown).bind fun _ => keeps_pure props

theorem keeps_switchComponents {span : Span} (options : List String) (shown : places span) :
    conduct.Keeps reach (switchComponents span options) := by
  induction options with
  | nil => exact keeps_pure ()
  | cons option rest ih =>
    rw [switchComponents]
    refine keeps_get_bind fun state same => ?_
    split
    next switched found =>
      refine .bind (fun other kept => conduct.matching ⟨rfl, rfl, rfl, rfl, rfl, ?_⟩) fun _ => ih
      -- Any other state of the run has the same components, too.
      exact ((Registry.resembles_setEnabled found).trans same).trans kept.symm
    next => exact (keeps_reportWarning _ shown).bind fun _ => ih

theorem keeps_setSpacing {span : Span} (value : String) (shown : places span) :
    conduct.Keeps reach (setSpacing span value) := by
  unfold setSpacing
  split
  · exact keeps_of_matches fun _ => ⟨rfl, rfl, rfl, rfl, rfl, .refl _⟩
  · exact keeps_reportWarning _ shown

theorem keeps_applyPragma {pragma : Pragma} (shown : places pragma.span) :
    conduct.Keeps reach (applyPragma pragma) := by
  have single : ∀ value, conduct.Keeps reach (setSingleSpeaker value) := fun value =>
    keeps_of_matches fun _ => ⟨rfl, rfl, rfl, rfl, rfl, .refl _⟩
  unfold applyPragma
  split
  · exact keeps_switchComponents _ shown
  · split
    · exact single true
    · exact single false
    · exact keeps_reportWarning _ shown
  · exact keeps_setSpacing _ shown
  · exact keeps_setSpacing _ shown
  · exact keeps_reportWarning _ shown

theorem keeps_addStylesheet {element : Element} (shown : places element.span) :
    conduct.Keeps reach (addStylesheet element) := by
  unfold addStylesheet
  split
  · exact keeps_of_matches fun _ => ⟨rfl, rfl, rfl, rfl, rfl, .refl _⟩
  · exact keeps_reportError _ shown

section Stylesheets

variable {top : Node}

mutual

theorem keeps_addStylesheets (among : Registry)
    (shown : ∀ element, top.Below (.element element) → places element.span)
    (contents : List Content) (below : ∀ content ∈ contents, top.Below content.node) :
    conduct.Keeps reach (addStylesheets among contents) :=
  match contents with
  | [] => keeps_pure ()
  | content :: rest => by
    obtain ⟨here, later⟩ := List.forall_mem_cons.mp below
    rw [addStylesheets]
    refine (keeps_addStylesheetsOf among shown content here).bind fun _ => ?_
    exact keeps_addStylesheets among shown rest later

theorem keeps_addStylesheetsOf (among : Registry)
    (shown : ∀ element, top.Below (.element element) → places element.span)
    (content : Content) (below : top.Below content.node) :
    conduct.Keeps reach (addStylesheetsOf among content) :=
  match content with
  | .element ⟨opening, body, closing, span⟩ => by
    rw [addStylesheetsOf]
    split
    · exact keeps_addStylesheet (shown _ below)
    · refine keeps_addStylesheetsIn among shown body fun node member => ?_
      exact below.tail (List.mem_cons_of_mem _ (List.mem_append_left _ member))
  | .template _ => keeps_pure ()
  | .comment _ => keeps_pure ()
  | .pragma _ => keeps_pure ()
  | .text _ => keeps_pure ()

theorem keeps_addStylesheetsIn (among : Registry)
    (shown : ∀ element, top.Below (.element element) → places element.span)
    (body : Body) (below : ∀ node ∈ Node.bodyNodes body, top.Below node) :
    conduct.Keeps reach (addStylesheetsIn among body) :=
  match body with
  | .selfClosing => keeps_pure ()
  | .literal _ => keeps_pure ()
  | .children contents => by
    rw [addStylesheetsIn]
    refine keeps_addStylesheets among shown contents fun content member => ?_
    exact below _ (List.mem_map_of_mem member)

end

end Stylesheets

/-! ### Elements -/

section Elements

variable {file : Root → Evaluate (List ComponentChild)} {element : Element}
  {body : Evaluate (List ComponentChild)}

theorem keeps_conditionHolds (fits : IsAllowed registry allowed places element) :
    conduct.Keeps reach (conditionHolds settings element) := by
  unfold conditionHolds
  split
  · exact keeps_pure true
  next pair found =>
    have here := fits.attributes pair (mem_of_attribute? found)
    refine (keeps_attributeValue true here).bind fun value => ?_
    split
    · exact keeps_pure false
    · exact keeps_pure _
    · exact (keeps_reportError _ here.value).bind fun _ => keeps_pure false

theorem keeps_buildNode (component : Component) (fits : IsAllowed registry allowed places element)
    (inside : conduct.Keeps reach body) :
    conduct.Keeps reach (buildNode settings component element body) := by
  unfold buildNode
  refine (keeps_elementProps component fits).bind fun props => inside.bind fun children => ?_
  simp only
  split
  · exact (keeps_embedMedia _ fits).bind fun props => keeps_pure _
  · exact (keeps_pure props).bind fun props => keeps_pure _

/-- **An element once**, whatever component it is. Only a binding reaches the scope around it. -/
theorem keeps_expandOnce {component : Component} (resolved : registry.Resolves element component)
    (outer : component.kind = .binding → reach = .outer)
    (fits : IsAllowed registry allowed places element)
    (includes : registry.Names element .inclusion →
      conduct.Keeps reach (evaluateInclude settings file element))
    (inside : conduct.Keeps reach body) :
    conduct.Keeps reach (expandOnce settings file component element body) := by
  unfold expandOnce
  refine (keeps_conditionHolds fits).bind fun holds => ?_
  split
  · split
    next same =>
      obtain rfl := outer same
      exact (keeps_evaluateBinding fits inside).bind fun _ => keeps_pure []
    next same => exact keeps_lending (includes (resolved.names same (by decide)))
    next same =>
      have named := resolved.names same (by decide)
      exact (keeps_evaluateSchema false fits (fits.schema (.inl named))).bind fun _ => keeps_pure []
    next same =>
      have named := resolved.names same (by decide)
      exact (keeps_evaluateSchema true fits (fits.schema (.inr named))).bind fun _ => keeps_pure []
    next => exact (keeps_evaluateRuntime fits.attributes).bind fun _ => keeps_pure []
    next => exact keeps_pure []
    next => exact keeps_buildNode component fits inside
  · exact keeps_pure []

theorem keeps_loopItems {iterator : ForIterator}
    (here : allowed ⟨iterator.collectionSpan, iterator.collection, .attributeExpression⟩ ∧
      places iterator.collectionSpan) :
    conduct.Keeps reach (loopItems settings iterator) := by
  unfold loopItems
  refine (keeps_evaluateAttribute here).bind fun value => ?_
  split
  · exact keeps_pure []
  · exact keeps_pure _
  · exact (keeps_reportError _ here.2).bind fun _ => keeps_pure []

/-- **What one item of a loop keeps, all of them keep.** The names that it binds go with its
frame. -/
theorem keeps_forEach (iterator : String) (length : Nat) {step : Evaluate (List ComponentChild)}
    (once : conduct.Keeps .outer step) (index : Nat) (items : List Value) :
    conduct.Keeps reach (forEach iterator length step index items) := by
  induction items generalizing index with
  | nil => exact keeps_pure []
  | cons item rest ih =>
    rw [forEach]
    refine (keeps_lending ((keeps_identified item).bind fun item => ?_)).bind fun first => ?_
    · exact keeps_inFrame _ once
    exact (ih (index + 1)).bind fun others => keeps_pure _

theorem keeps_resolveElement (shown : places element.opening.nameSpan) :
    conduct.Keeps reach (resolveElement element) := by
  refine keeps_get_bind fun state _ => ?_
  split
  · exact keeps_pure _
  · exact (keeps_reportAll (List.forall_mem_singleton.mpr shown)).bind fun _ => keeps_pure _

theorem resolveElement_run (element : Element) (state : EvaluationState) :
    ((resolveElement element).run state).1 = state.registry.resolve element.name := by
  simp only [resolveElement, StateT.run_bind, StateT.run_get, pure_bind, Registry.resolve]
  cases state.registry.lookup element.name <;> rfl

/-- **An element**, as often as its loop says. It leaves all of the scope as it is unless it binds
names without a loop. -/
theorem keeps_expandElement_run {state : EvaluationState}
    (same : state.registry.Resembles registry)
    (outer : (state.registry.resolve element.name).kind = .binding →
      element.attribute? "for" = none → reach = .outer)
    (fits : IsAllowed registry allowed places element)
    (includes : ∀ {reach}, registry.Names element .inclusion →
      conduct.Keeps reach (evaluateInclude settings file element))
    (inside : ∀ {reach}, conduct.Keeps reach body) :
    conduct.keeps reach state ((expandElement settings file element body).run state).2 := by
  have resolved := Registry.resolves_resolve same element
  have once : ∀ {reach}, ((state.registry.resolve element.name).kind = .binding → reach = .outer) →
      conduct.Keeps reach (expandOnce settings file (state.registry.resolve element.name) element
        body) :=
    fun outer => keeps_expandOnce resolved outer fits includes inside
  unfold expandElement
  refine (keeps_resolveElement fits.reports.name).run_bind same ?_
  rw [resolveElement_run]
  simp only
  split
  next absent => exact once fun binding => outer binding absent
  next pair found =>
    have here := fits.attributes pair (mem_of_attribute? found)
    have keys := here.keys
    unfold attributeKeys at keys
    split
    next iterator form =>
      rw [form] at keys
      refine (keeps_loopItems (keys _ List.mem_cons_self)).bind fun items => ?_
      exact keeps_forEach _ _ (once fun _ => rfl) 0 items
    next => exact keeps_pure []
    next => exact (keeps_reportError _ here.whole).bind fun _ => keeps_pure []

theorem keeps_expandElement (fits : IsAllowed registry allowed places element)
    (includes : ∀ {reach}, registry.Names element .inclusion →
      conduct.Keeps reach (evaluateInclude settings file element))
    (inside : ∀ {reach}, conduct.Keeps reach body) :
    conduct.Keeps .outer (expandElement settings file element body) :=
  fun _ same => keeps_expandElement_run same (fun _ _ => rfl) fits includes inside

end Elements

/-! ### Contents -/

theorem keeps_evaluateTemplate {template : Template}
    (here : allowed (templateKey .template template)) (shown : places template.span) :
    conduct.Keeps reach (evaluateTemplate settings template) := by
  unfold evaluateTemplate
  split
  · exact keeps_pure []
  · refine (keeps_evaluateReported here shown).bind fun value => ?_
    cases value with
    | none => exact keeps_pure []
    | some value => exact keeps_pure _

section Contents

variable {top : Node} {expand : Element → Evaluate (List ComponentChild) →
  Evaluate (List ComponentChild)}

/-- What is kept at everything below a node. -/
structure KeepsBelow (conduct : Conduct registry allowed places) (settings : Settings) (top : Node)
    (expand : Element → Evaluate (List ComponentChild) → Evaluate (List ComponentChild)) :
    Prop where
  templates : ∀ node, top.Below (.template node) →
    allowed (templateKey .template node) ∧ places node.span
  pragmas : ∀ node, top.Below (.pragma node) → places node.span
  elements : ∀ element body, top.Below (.element element) →
    (∀ {reach}, conduct.Keeps reach body) → conduct.Keeps .outer (expand element body)

mutual

/-- **Contents one after the other.** -/
theorem keeps_walkContents (each : KeepsBelow conduct settings top expand) (contents : List Content)
    (below : ∀ content ∈ contents, top.Below content.node) :
    conduct.Keeps .outer (walkContents settings expand contents) :=
  match contents with
  | [] => keeps_pure []
  | content :: rest => by
    obtain ⟨here, later⟩ := List.forall_mem_cons.mp below
    rw [walkContents]
    refine (keeps_walkContent each content here).bind fun first => ?_
    exact (keeps_walkContents each rest later).bind fun others => keeps_pure _

theorem keeps_walkContent (each : KeepsBelow conduct settings top expand) (content : Content)
    (below : top.Below content.node) :
    conduct.Keeps .outer (walkContent settings expand content) :=
  match content with
  | .text node => keeps_pure _
  | .template node => by
    obtain ⟨here, shown⟩ := each.templates node below
    exact keeps_evaluateTemplate here shown
  | .comment node => keeps_pure []
  | .pragma node => (keeps_applyPragma (each.pragmas node below)).bind fun _ => keeps_pure []
  | .element ⟨opening, body, closing, span⟩ => by
    rw [walkContent]
    refine each.elements _ _ below (keeps_walkBody each body fun content member => ?_)
    exact below.tail (List.mem_cons_of_mem _ (List.mem_append_left _ member))

/-- **What is bound in a body goes with it.** -/
theorem keeps_walkBody (each : KeepsBelow conduct settings top expand) (body : Body)
    (below : ∀ node ∈ Node.bodyNodes body, top.Below node) {reach : Reach} :
    conduct.Keeps reach (walkBody settings expand body) :=
  match body with
  | .selfClosing => keeps_pure []
  | .literal text => keeps_pure _
  | .children contents => by
    rw [walkBody]
    refine keeps_inFrame [] (keeps_walkContents each contents fun content member => ?_)
    exact below _ (List.mem_map_of_mem member)

end

end Contents

/-! ### Files -/

section Files

variable {file : Root → Evaluate (List ComponentChild)} {element : Element}

theorem keeps_includeSeed (fits : IsAllowed registry allowed places element) :
    conduct.Keeps reach (includeSeed settings element) := by
  unfold includeSeed
  refine keeps_get_bind fun state _ => ?_
  simp only
  split
  · exact keeps_pure _
  next pair found =>
    have here := fits.attributes pair (mem_of_attribute? found)
    refine (keeps_attributeValue false here).bind fun value => ?_
    cases value with
    | none => exact keeps_pure none
    | some value =>
      refine (keeps_identified value).bind fun value => ?_
      split
      · exact keeps_pure _
      · exact (keeps_reportError _ here.value).bind fun _ => keeps_pure none

/-- **An element that includes a file**, as far as it does not enter the file. -/
theorem keeps_evaluateInclude (fits : IsAllowed registry allowed places element)
    (entered : ∀ pair, element.attribute? "src" = some pair → ∀ seed path,
      conduct.Keeps reach (includePath settings file element (valueSpan pair) seed path)) :
    conduct.Keeps reach (evaluateInclude settings file element) := by
  unfold evaluateInclude
  split
  · exact (keeps_reportError _ fits.reports.opening).bind fun _ => keeps_pure []
  next pair found =>
    refine (keeps_attributeText fits "src").bind fun source => ?_
    cases source with
    | none => exact keeps_pure []
    | some source =>
      refine (keeps_includeSeed fits).bind fun seed => ?_
      cases seed with
      | none => exact keeps_pure []
      | some seed => exact keeps_get_bind fun state _ => entered pair found seed _

theorem keeps_moveTo (indifferent : ∀ state loader,
      conduct.keeps reach state { state with loader := loader }) (loader : Loader) :
    conduct.Keeps reach (moveTo loader) :=
  fun state _ => conduct.trans (indifferent state loader)
    (conduct.matching ⟨rfl, rfl, rfl, rfl, rfl, .refl _⟩)

/-- The file that is entered may be any where the files being included do not matter. -/
theorem keeps_includePath (indifferent : ∀ state loader,
      conduct.keeps reach state { state with loader := loader })
    {anchor : Span} (shown : places anchor) (seed : Frame) (path : String)
    (entered : ∀ text,
      conduct.Keeps reach (includeText settings file element anchor seed path text)) :
    conduct.Keeps reach (includePath settings file element anchor seed path) := by
  unfold includePath
  refine keeps_get_bind fun state _ => ?_
  split
  · exact (keeps_reportError _ shown).bind fun _ => keeps_pure []
  · refine (keeps_moveTo indifferent _).bind fun _ => ?_
    refine (keeps_readFile _ shown).bind fun text => ?_
    cases text with
    | none =>
      have left : conduct.Keeps reach leaveFile :=
        keeps_get_bind fun _ _ => keeps_moveTo indifferent _
      exact left.bind fun _ => keeps_pure []
    | some text => exact entered text

/-- **A file.** -/
theorem keeps_evaluateFile {depth : Nat} {root : Root}
    (templates : ∀ node, (Node.root root).Below (.template node) →
      allowed (templateKey .template node) ∧ places node.span)
    (pragmas : ∀ node, (Node.root root).Below (.pragma node) → places node.span)
    (elements : ∀ element, (Node.root root).Below (.element element) →
      IsAllowed registry allowed places element)
    (includes : ∀ element {reach}, (Node.root root).Below (.element element) →
      registry.Names element .inclusion →
      conduct.Keeps reach (evaluateInclude settings (evaluateFile settings depth) element)) :
    conduct.Keeps reach (evaluateFile settings (depth + 1) root) := by
  have inside : ∀ content ∈ root.children, (Node.root root).Below content.node :=
    fun content member => .single (List.mem_map_of_mem member)
  have shown : ∀ element, (Node.root root).Below (.element element) → places element.span :=
    fun element below => (elements element below).reports.whole
  rw [evaluateFile, evaluateRoot]
  refine keeps_get_bind fun state _ => ?_
  refine (keeps_addStylesheets _ shown _ inside).bind fun _ => ?_
  refine keeps_inFrame [] (keeps_walkContents ⟨templates, pragmas, ?_⟩ _ inside)
  intro element body below within
  exact keeps_expandElement (elements element below) (includes element below) within

end Files

end Evaluate

/-! ### Invariants -/

/-- The tag of an element names a component of a kind. -/
def Settings.Names (settings : Settings) (element : Element) (kind : ComponentKind) : Prop :=
  ∃ component, settings.registry.named? element.name = some component ∧ component.kind = kind

/-- A property of states that depends on the trace, its history and the components only, and that
evaluations at the places allowed keep. -/
structure Invariant (settings : Settings) (allowed : TraceKey → Prop) where
  holds : EvaluationState → Prop
  registry : ∀ {state}, holds state → state.registry.Resembles settings.registry
  frame : ∀ {state other : EvaluationState}, holds state → other.trace = state.trace →
    other.events = state.events → other.registry.Resembles state.registry → holds other
  evaluated : ∀ {state} key value, holds state → allowed key → holds { state with
    trace := state.trace.record key.span key.expression key.kind value
    events := state.events ++ [.evaluated key.span key.expression key.kind value] }

namespace Invariant

variable {settings : Settings} {allowed : TraceKey → Prop} {invariant : Invariant settings allowed}
  {reach : Reach} {α : Type}

/-- A step keeps an invariant. -/
def Kept (invariant : Invariant settings allowed) (step : Evaluate α) : Prop :=
  ∀ state, invariant.holds state → invariant.holds (step.run state).2

/-- The relation that an invariant is kept. It looks neither at scopes nor at what is reported. -/
def conduct (invariant : Invariant settings allowed) :
    Conduct settings.registry allowed fun _ => True where
  keeps _ before after :=
    (invariant.holds before → invariant.holds after) ∧ after.registry.Resembles before.registry
  trans first second := ⟨second.1 ∘ first.1, second.2.trans first.2⟩
  resembles := And.right
  matching same :=
    ⟨fun holds => invariant.frame holds same.trace same.events same.registry, same.registry⟩
  evaluated _ key value here := ⟨fun holds => invariant.evaluated key value holds here, .refl _⟩
  reported _ _ _ := ⟨fun holds => invariant.frame holds rfl rfl (.refl _), .refl _⟩
  bound _ _ _ := ⟨fun holds => invariant.frame holds rfl rfl (.refl _), .refl _⟩
  framed _ inside := by
    obtain ⟨kept, same⟩ := inside
    refine ⟨fun holds => ?_, same⟩
    have pushed := kept (invariant.frame holds rfl rfl (.refl _))
    exact invariant.frame pushed rfl rfl (.refl _)

theorem conduct_indifferent (state : EvaluationState) (loader : Loader) :
    invariant.conduct.keeps reach state { state with loader := loader } :=
  ⟨fun holds => invariant.frame holds rfl rfl (.refl _), .refl _⟩

theorem kept_of_keeps {step : Evaluate α} (keeps : invariant.conduct.Keeps reach step) :
    invariant.Kept step :=
  fun state holds => (keeps state (invariant.registry holds)).1 holds

end Invariant

namespace Evaluate

variable {settings : Settings} {allowed : TraceKey → Prop} {invariant : Invariant settings allowed}

/-- **A file keeps an invariant** when everything in it is at places allowed. -/
theorem kept_evaluateFile {depth : Nat} {root : Root}
    (templates : ∀ node, (Node.root root).Below (.template node) →
      allowed (templateKey .template node))
    (elements : ∀ element, (Node.root root).Below (.element element) →
      IsAllowed settings.registry allowed (fun _ => True) element)
    (includes : ∀ element, (Node.root root).Below (.element element) →
      settings.Names element .inclusion → ∀ {reach}, invariant.conduct.Keeps reach
        (evaluateInclude settings (evaluateFile settings depth) element)) :
    invariant.Kept (evaluateFile settings (depth + 1) root) := by
  have kept : invariant.conduct.Keeps .whole (evaluateFile settings (depth + 1) root) := by
    refine keeps_evaluateFile ?_ (fun _ _ => trivial) elements ?_
    · exact fun node below => ⟨templates node below, trivial⟩
    · exact fun element _ below names => includes element below names
  exact Invariant.kept_of_keeps kept

end Evaluate

end PromptMarkup
