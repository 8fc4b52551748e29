/-
**Where the content of a document comes from.**

Everything that a document is evaluated to stands for some content of it: a text for a text, exact
and at its range, or for a template; a component for an element, with parts that stand for what the
element contains. Only what an element includes stands for nothing else, and all of that has the
range of the element.

* `Shown`: regions that stand for some contents, in the order of the contents;
* `Returns`, `Yields`, `Shows`: what steps hand on;
* `returns_evaluateInclude`: what is included has the range of the element that includes it;
* `shows_expandElement`, `shows_walkContents`: elements and contents;
* `shows_evaluateFile`: a file.
-/

import PromptMarkup.Proofs.Block.Regions
import PromptMarkup.Proofs.Evaluation.Restoring

namespace PromptMarkup

open Markup

/-! ### Contents -/

/-- The contents of a body; the text of a literal body is one. -/
def Markup.Body.contents : Body → List Content
  | selfClosing => []
  | literal text => [.text text]
  | children contents => contents

theorem Markup.Node.bodyNodes_eq_map (body : Body) :
    Node.bodyNodes body = body.contents.map Content.node := by
  cases body <;> rfl

/-- Regions that stand for some contents, in their order. Content may stand for nothing, an element
with a loop may stand for any number of regions, and an element that includes a file for regions
with its own range. Where there are `items`, a region may be put into an item of a list. -/
inductive Shown (registry : Registry) (items : Bool) : List Content → List Region → Prop
  | nothing : Shown registry items [] []
  | skipped {rest : List Content} {regions : List Region} (content : Content) :
    Shown registry items rest regions → Shown registry items (content :: rest) regions
  | text {rest : List Content} {regions : List Region} (node : TextNode) :
    Shown registry items rest regions →
      Shown registry items (.text node :: rest) (⟨node.span, some node.value, []⟩ :: regions)
  | template {rest : List Content} {regions : List Region} (node : Template) :
    Shown registry items rest regions →
      Shown registry items (.template node :: rest) (⟨node.span, none, []⟩ :: regions)
  | element {rest : List Content} {parts regions : List Region} {element : Element} :
    Shown registry items element.body.contents parts → Shown registry items rest regions →
      Shown registry items (.element element :: rest) (⟨element.span, none, parts⟩ :: regions)
  | included {rest : List Content} {region : Region} {regions : List Region} {element : Element} :
    registry.Names element .inclusion → region.IsAnchored element.span →
      Shown registry items (.element element :: rest) regions →
      Shown registry items (.element element :: rest) (region :: regions)
  | repeated {rest : List Content} {regions : List Region} {element : Element} :
    element.attribute? "for" ≠ none →
      Shown registry items (.element element :: .element element :: rest) regions →
      Shown registry items (.element element :: rest) regions
  | item {contents : List Content} {region : Region} {regions : List Region} :
    items = true → Shown registry items contents (region :: regions) →
      Shown registry items contents (⟨region.span, none, [region]⟩ :: regions)

namespace Shown

variable {registry : Registry} {items : Bool} {first second : List Content}
  {front back regions : List Region}

/-- Contents may stand for nothing. -/
theorem none (contents : List Content) : Shown registry items contents [] := by
  induction contents with
  | nil => exact .nothing
  | cons content rest ih => exact .skipped content ih

/-- What is shown of contents is shown in their order. -/
theorem append (left : Shown registry items first front)
    (right : Shown registry items second back) :
    Shown registry items (first ++ second) (front ++ back) := by
  induction left with
  | nothing => exact right
  | skipped content _ ih => exact .skipped content ih
  | text node _ ih => exact .text node ih
  | template node _ ih => exact .template node ih
  | element inside _ _ ih => exact .element inside ih
  | included names anchored _ ih => exact .included names anchored ih
  | repeated loop _ ih => exact .repeated loop ih
  | item wrapped _ ih => exact .item wrapped ih

/-- Anything may be left out of what is shown. -/
theorem sublist {contents : List Content} {others : List Region}
    (shown : Shown registry items contents regions) (fewer : others.Sublist regions) :
    Shown registry items contents others := by
  induction shown generalizing others with
  | nothing =>
    cases fewer
    exact .nothing
  | skipped content _ ih => exact .skipped content (ih fewer)
  | text node _ ih =>
    cases fewer with
    | cons _ later => exact .skipped _ (ih later)
    | cons_cons _ later => exact .text node (ih later)
  | template node _ ih =>
    cases fewer with
    | cons _ later => exact .skipped _ (ih later)
    | cons_cons _ later => exact .template node (ih later)
  | element inside _ _ ih =>
    cases fewer with
    | cons _ later => exact .skipped _ (ih later)
    | cons_cons _ later => exact .element inside (ih later)
  | included names anchored _ ih =>
    cases fewer with
    | cons _ later => exact ih later
    | cons_cons _ later => exact .included names anchored (ih later)
  | repeated loop _ ih => exact .repeated loop (ih fewer)
  | item wrapped _ ih =>
    cases fewer with
    | cons _ later => exact ih (later.cons _)
    | cons_cons _ later => exact .item wrapped (ih (later.cons_cons _))

theorem includedAll {element : Element} (names : registry.Names element .inclusion)
    (anchored : ∀ region ∈ regions, region.IsAnchored element.span) :
    Shown registry items [.element element] regions := by
  induction regions with
  | nil => exact .none _
  | cons region rest ih =>
    obtain ⟨here, later⟩ := List.forall_mem_cons.mp anchored
    exact .included names here (ih later)

/-- What an element with a loop stands for may be shown again and again. -/
theorem repeatedAll {element : Element} (loop : element.attribute? "for" ≠ .none)
    (once : Shown registry items [.element element] front)
    (again : Shown registry items [.element element] back) :
    Shown registry items [.element element] (front ++ back) :=
  .repeated loop (once.append again)

end Shown

/-! ### Steps -/

namespace Evaluate

open Conduct

variable {settings : Settings} {registry : Registry} {α β : Type}

/-- What a step hands on has a property. -/
def Returns (holds : α → Prop) (step : Evaluate α) : Prop := ∀ state, holds (step.run state).1

/-- What a step hands on where tags stand for the components of a registry has a property, and they
stand for these behind the step. -/
def Yields (registry : Registry) (holds : α → Prop) (step : Evaluate α) : Prop :=
  ∀ state, state.registry.Resembles registry →
    holds (step.run state).1 ∧ (step.run state).2.registry.Resembles registry

theorem returns_pure {holds : α → Prop} {value : α} (here : holds value) :
    Returns holds (pure value) := fun _ => here

/-- The last step says what is handed on. -/
theorem returns_bind {holds : β → Prop} {first : Evaluate α} {next : α → Evaluate β}
    (later : ∀ value, Returns holds (next value)) : Returns holds (first >>= next) :=
  fun _ => later _ _

theorem yields_pure {holds : α → Prop} {value : α} (here : holds value) :
    Yields registry holds (pure value) := fun _ same => ⟨here, same⟩

theorem yields_of_keeps {step : Evaluate α} (kept : (restoring registry).Keeps .outer step) :
    Yields registry (fun _ => True) step :=
  fun state same => ⟨trivial, (kept state same).2.2.trans same⟩

theorem Yields.bind {holds : α → Prop} {behind : β → Prop} {first : Evaluate α}
    {next : α → Evaluate β} (here : Yields registry holds first)
    (later : ∀ value, holds value → Yields registry behind (next value)) :
    Yields registry behind (first >>= next) := by
  intro state same
  obtain ⟨value, components⟩ := here state same
  exact later _ value _ components

/-- What comes behind a step may take any value from it. -/
theorem Yields.after {holds : β → Prop} {first : Evaluate α} {next : α → Evaluate β}
    (kept : (restoring registry).Keeps .outer first)
    (later : ∀ value, Yields registry holds (next value)) :
    Yields registry holds (first >>= next) :=
  (yields_of_keeps kept).bind fun value _ => later value

theorem yields_lending {holds : α → Prop} {step : Evaluate α}
    (inside : Yields registry holds step) : Yields registry holds (lending step) :=
  fun _ same => inside _ same

theorem yields_inFrame {holds : α → Prop} (frame : Frame) {step : Evaluate α}
    (inside : Yields registry holds step) : Yields registry holds (inFrame frame step) :=
  yields_lending fun _ same => inside _ same

/-! ### Elements -/

/-- A step hands on children that stand for some contents. -/
def Shows (registry : Registry) (contents : List Content)
    (step : Evaluate (List ComponentChild)) : Prop :=
  Yields registry (fun children => Shown registry false contents (childRegions children)) step

theorem shows_none (contents : List Content) : Shows registry contents (pure []) :=
  yields_pure (.none contents)

section Elements

variable {file : Root → Evaluate (List ComponentChild)} {element : Element}
  {body : Evaluate (List ComponentChild)}

/-- Some children have just the one range, with everything below them. -/
def AreAnchored (span : Span) (children : List ComponentChild) : Prop :=
  ∀ region ∈ childRegions children, region.IsAnchored span

theorem returns_nothing (span : Span) : Returns (AreAnchored span) (pure []) :=
  returns_pure (List.forall_mem_nil _)

theorem returns_includeText (anchor : Span) (seed : Frame) (path text : String) :
    Returns (AreAnchored element.span)
      (includeText settings file element anchor seed path text) :=
  returns_bind fun _ => returns_bind fun _ => returns_bind fun _ => returns_bind fun _ =>
    returns_pure (isAnchored_reanchor _ _)

theorem returns_includePath (anchor : Span) (seed : Frame) (path : String) :
    Returns (AreAnchored element.span)
      (includePath settings file element anchor seed path) := by
  unfold includePath
  refine returns_bind fun state => ?_
  split
  · exact returns_bind fun _ => returns_nothing _
  · refine returns_bind fun _ => returns_bind fun text => ?_
    cases text with
    | none => exact returns_bind fun _ => returns_nothing _
    | some text => exact returns_includeText anchor seed path text

/-- **All that a file brings in has the range of the element that includes it**, and none of it is
exact. -/
theorem returns_evaluateInclude (settings : Settings)
    (file : Root → Evaluate (List ComponentChild)) (element : Element) :
    Returns (AreAnchored element.span) (evaluateInclude settings file element) := by
  unfold evaluateInclude
  split
  · exact returns_bind fun _ => returns_nothing _
  · refine returns_bind fun source => ?_
    cases source with
    | none => exact returns_nothing _
    | some source =>
      refine returns_bind fun seed => ?_
      cases seed with
      | none => exact returns_nothing _
      | some seed => exact returns_bind fun state => returns_includePath _ _ _

theorem shows_buildNode (component : Component)
    (inside : Shows registry element.body.contents body) :
    Shows registry [.element element] (buildNode settings component element body) := by
  have allowed := isAllowed_anywhere registry element
  unfold buildNode
  refine .after (keeps_elementProps component allowed) fun props => ?_
  refine inside.bind fun children shown => ?_
  have whole : ∀ props, Shows registry [.element element]
      (pure [.node ⟨component, element.name, props, children, element.span⟩]) :=
    fun props => yields_pure (.element shown .nothing)
  simp only
  split
  · exact .after (keeps_embedMedia _ allowed) whole
  · exact whole props

/-- **An element once.** -/
theorem shows_expandOnce (each : ∀ root, (restoring registry).Keeps .whole (file root))
    {component : Component} (resolved : registry.Resolves element component)
    (restores : (restoring registry).Keeps .outer body)
    (inside : Shows registry element.body.contents body) :
    Shows registry [.element element] (expandOnce settings file component element body) := by
  have allowed := isAllowed_anywhere registry element
  have nothing : Shows registry [.element element] (pure []) := shows_none _
  unfold expandOnce
  refine .after (keeps_conditionHolds allowed) fun holds => ?_
  split
  · split
    next => exact .after (keeps_evaluateBinding allowed restores) fun _ => nothing
    next same =>
      intro state alike
      have names := resolved.names same (by decide)
      refine ⟨.includedAll names (returns_evaluateInclude settings file element state), ?_⟩
      have restores : (restoring registry).Keeps .outer (evaluateInclude settings file element) :=
        restoring_evaluateInclude each element
      exact (yields_of_keeps (keeps_lending restores) state alike).2
    next => exact .after (keeps_evaluateSchema _ allowed fun _ _ => trivial) fun _ => nothing
    next => exact .after (keeps_evaluateSchema _ allowed fun _ _ => trivial) fun _ => nothing
    next => exact .after (keeps_evaluateRuntime allowed.attributes) fun _ => nothing
    next => exact nothing
    next => exact shows_buildNode component inside
  · exact nothing

/-- Every item of a loop shows the element once more. -/
theorem shows_forEach (iterator : String) (length : Nat) {once : Evaluate (List ComponentChild)}
    (loop : element.attribute? "for" ≠ none) (shows : Shows registry [.element element] once)
    (index : Nat) (items : List Value) :
    Shows registry [.element element] (forEach iterator length once index items) := by
  induction items generalizing index with
  | nil => exact shows_none _
  | cons item rest ih =>
    rw [forEach]
    have shown : Shows registry [.element element]
        (lending do inFrame (loopFrame iterator (← identified item) index length) once) :=
      yields_lending (.after (keeps_identified item) fun item => yields_inFrame _ shows)
    refine shown.bind fun first here => ?_
    refine (ih (index + 1)).bind fun others later => yields_pure ?_
    rw [childRegions_append]
    exact .repeatedAll loop here later

/-- **An element**, as often as its loop says. -/
theorem shows_expandElement (each : ∀ root, (restoring registry).Keeps .whole (file root))
    (restores : (restoring registry).Keeps .outer body)
    (inside : Shows registry element.body.contents body) :
    Shows registry [.element element] (expandElement settings file element body) := by
  have allowed := isAllowed_anywhere registry element
  have nothing : Shows registry [.element element] (pure []) := shows_none _
  have resolving : Yields registry (registry.Resolves element) (resolveElement element) := by
    intro state same
    rw [resolveElement_run]
    exact ⟨Registry.resolves_resolve same element,
      (yields_of_keeps (keeps_resolveElement trivial) state same).2⟩
  unfold expandElement
  refine resolving.bind fun component resolved => ?_
  have once : Shows registry [.element element]
      (expandOnce settings file component element body) :=
    shows_expandOnce each resolved restores inside
  simp only
  split
  · exact once
  next pair found =>
    split
    next iterator _ =>
      refine .after (keeps_loopItems ⟨trivial, trivial⟩) fun items => ?_
      refine shows_forEach _ _ ?_ once 0 items
      rw [found]
      exact Option.some_ne_none pair
    · exact nothing
    · exact .after (keeps_reportError _ trivial) fun _ => nothing

end Elements

/-! ### Contents -/

theorem shows_evaluateTemplate (settings : Settings) (template : Template) :
    Shows registry [.template template] (evaluateTemplate settings template) := by
  unfold evaluateTemplate
  split
  · exact shows_none _
  · refine .after (keeps_evaluateReported trivial trivial) fun value => ?_
    cases value with
    | none => exact shows_none _
    | some value => exact yields_pure (.template template .nothing)

section Contents

variable {file : Root → Evaluate (List ComponentChild)}

mutual

/-- **What contents are evaluated to stands for them**, one after the other. -/
theorem shows_walkContents (each : ∀ root, (restoring registry).Keeps .whole (file root))
    (contents : List Content) :
    Shows registry contents (walkContents settings (expandElement settings file) contents) :=
  match contents with
  | [] => shows_none []
  | content :: rest => by
    rw [walkContents]
    refine (shows_walkContent each content).bind fun first here => ?_
    refine (shows_walkContents each rest).bind fun others later => yields_pure ?_
    rw [childRegions_append]
    exact here.append later

theorem shows_walkContent (each : ∀ root, (restoring registry).Keeps .whole (file root))
    (content : Content) :
    Shows registry [content] (walkContent settings (expandElement settings file) content) :=
  match content with
  | .text node => yields_pure (.text node .nothing)
  | .template node => shows_evaluateTemplate settings node
  | .comment node => shows_none _
  | .pragma node => .after (keeps_applyPragma trivial) fun _ => shows_none _
  | .element ⟨opening, body, closing, span⟩ => by
    rw [walkContent]
    refine shows_expandElement each ?_ (shows_walkBody each body)
    refine keeps_walkBody (restoring_below each (.element ⟨opening, body, closing, span⟩))
      body fun node member => ?_
    exact .single (List.mem_cons_of_mem _ (List.mem_append_left _ member))

theorem shows_walkBody (each : ∀ root, (restoring registry).Keeps .whole (file root))
    (body : Body) :
    Shows registry body.contents (walkBody settings (expandElement settings file) body) :=
  match body with
  | .selfClosing => shows_none []
  | .literal text => yields_pure (.text text .nothing)
  | .children contents => by
    rw [walkBody]
    exact yields_inFrame [] (shows_walkContents each contents)

end

end Contents

/-- **What a file is evaluated to stands for its contents.** -/
theorem shows_evaluateFile (depth : Nat) (root : Root) :
    Shows registry root.children (evaluateFile settings (depth + 1) root) := by
  have below : ∀ content ∈ root.children, (Node.root root).Below content.node :=
    fun content member => .single (List.mem_map_of_mem member)
  rw [evaluateFile, evaluateRoot]
  have reads : (restoring registry).Keeps .outer get := keeps_of_matches fun _ =>
    ⟨rfl, rfl, rfl, rfl, rfl, .refl _⟩
  refine .after reads fun state => ?_
  refine .after (keeps_addStylesheets _ (fun _ _ => trivial) _ below) fun _ => ?_
  exact yields_inFrame [] (shows_walkContents (restoring_evaluateFile depth) root.children)

end Evaluate

end PromptMarkup
