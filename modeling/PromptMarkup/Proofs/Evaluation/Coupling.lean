/-
**Two runs side by side.**

Two runs over the same contents go the same way as long as their states are looked at alike, even
when they evaluate included files in different ways. What is related before the contents is related
behind them, and both runs stand for the same children.

* `Coupling`: a relation between the states of two runs that quiet steps and changes of the scope
  keep;
* `Coupling.Couples`: two steps that keep it and hand on the same; `Carries.bind` puts such steps
  together;
* `couples_walkContents`: contents, if pragmas and included files keep the relation;
* `couples_includePath`, `couples_evaluateInclude`: a file, and an element that includes it, as far
  as the runs are related in it;
* `couples_evaluateRoot`: a document, if the relation is kept when components and the stylesheet
  change.
-/

import PromptMarkup.Proofs.Evaluation.Quiet
import PromptMarkup.Proofs.Markup.ProblemPlaces

namespace PromptMarkup

open Markup

/-! ### Relations between two runs -/

/-- A relation between the states of two runs. They are looked at alike, and the relation is kept by
steps that change nothing that is looked at, and when the scope changes in the same way. -/
structure Coupling where
  relates : EvaluationState → EvaluationState → Prop
  alike : ∀ {first second}, relates first second → first.Alike second
  quiet : ∀ {α : Type} {step : Evaluate α} {first second}, Evaluate.Quiet (fun _ => True) step →
    relates first second → relates (step.run first).2 (step.run second).2
  rebound : ∀ {first second} change, relates first second →
    relates (first.rebind change) (second.rebind change)

namespace Coupling

/-- A relation is kept when the components or the stylesheet change in the same way. -/
structure IsOpen (coupling : Coupling) : Prop where
  registry : ∀ {first second} registry, coupling.relates first second →
    coupling.relates { first with registry := registry } { second with registry := registry }
  stylesheet : ∀ {first second} sheet, coupling.relates first second →
    coupling.relates { first with stylesheet := sheet } { second with stylesheet := sheet }

variable {coupling before between after : Coupling} {α β : Type}

/-- Two steps hand on the same, and bring states that are related in one way to states that are
related in another way. -/
def Carries (before after : Coupling) (one other : Evaluate α) : Prop :=
  ∀ first second, before.relates first second →
    (one.run first).1 = (other.run second).1 ∧
      after.relates (one.run first).2 (other.run second).2

/-- Two steps hand on the same and keep a relation. -/
abbrev Couples (coupling : Coupling) (one other : Evaluate α) : Prop :=
  coupling.Carries coupling one other

/-- **A quiet step goes the same way in both runs.** -/
theorem couples_quiet {step : Evaluate α} (quiet : Evaluate.Quiet (fun _ => True) step) :
    coupling.Couples step step :=
  fun _ _ related => ⟨quiet.value (coupling.alike related), coupling.quiet quiet related⟩

theorem couples_pure (value : α) : coupling.Couples (pure value) (pure value) :=
  couples_quiet (Evaluate.quiet_pure value)

/-- **Steps one after the other.** -/
theorem Carries.bind {one other : Evaluate α} {next later : α → Evaluate β}
    (here : before.Carries between one other)
    (behind : ∀ value, between.Carries after (next value) (later value)) :
    before.Carries after (one >>= next) (other >>= later) := by
  intro first second related
  obtain ⟨same, kept⟩ := here first second related
  have followed := behind (one.run first).1 _ _ kept
  rw [StateT.run_bind, StateT.run_bind]
  change ((next (one.run first).1).run _).1 = ((later (other.run second).1).run _).1 ∧
    after.relates ((next (one.run first).1).run _).2 ((later (other.run second).1).run _).2
  rwa [← same]

/-- What is read off two states is read off states that are related. -/
theorem couples_get_bind {next later : EvaluationState → Evaluate β}
    (behind : ∀ first second, coupling.relates first second →
      coupling.Couples (next first) (later second)) :
    coupling.Couples (get >>= next) (get >>= later) :=
  fun first second related => behind first second related first second related

/-- **A change of the scope and of the identities given away** that depends on them alone. -/
theorem couples_modifyGet (give : Nat → α) (change : Scope → Nat → Scope × Nat) :
    coupling.Couples (modifyGet fun state => (give state.nextBuilder, state.rebind change))
      (modifyGet fun state => (give state.nextBuilder, state.rebind change)) :=
  fun _ _ related =>
    ⟨congrArg give (coupling.alike related).nextBuilder, coupling.rebound change related⟩

theorem couples_modify (change : Scope → Nat → Scope × Nat) :
    coupling.Couples (modify (EvaluationState.rebind change))
      (modify (EvaluationState.rebind change)) :=
  couples_modifyGet (fun _ => ()) change

end Coupling

namespace Evaluate

open Coupling

variable {settings : Settings} {coupling : Coupling} {α : Type}

/-! ### Scopes -/

theorem couples_identified (value : Value) :
    coupling.Couples (identified value) (identified value) :=
  couples_modifyGet (fun next => (value.identify next).1) fun scope next =>
    (scope, (value.identify next).2)

theorem couples_bindName (name : String) (value : Value) :
    coupling.Couples (bindName name value) (bindName name value) :=
  (couples_identified value).bind fun value => couples_modify fun scope next =>
    (scope.set name value, next)

theorem couples_bindNames (fields : Frame) :
    coupling.Couples (bindNames fields) (bindNames fields) := by
  induction fields with
  | nil => exact couples_pure ()
  | cons field rest ih =>
    obtain ⟨name, value⟩ := field
    exact (couples_bindName name value).bind fun _ => ih

theorem couples_lending {one other : Evaluate α} (inside : coupling.Couples one other) :
    coupling.Couples (lending one) (lending other) := by
  refine couples_get_bind fun first second related => inside.bind fun result => ?_
  rw [(coupling.alike related).nextBuilder]
  refine (couples_modify fun scope _ => (scope, second.nextBuilder)).bind fun _ => ?_
  exact couples_pure result

/-- **A frame.** -/
theorem couples_inFrame (frame : Frame) {one other : Evaluate α}
    (inside : coupling.Couples one other) :
    coupling.Couples (inFrame frame one) (inFrame frame other) := by
  refine couples_lending ?_
  refine (couples_modify fun scope next => (scope.push frame, next)).bind fun _ => ?_
  refine inside.bind fun result => ?_
  exact (couples_modify fun scope next => (scope.pop, next)).bind fun _ => couples_pure result

/-! ### Elements -/

section Elements

variable {element : Element} {file copy : Root → Evaluate (List ComponentChild)}
  {body inside : Evaluate (List ComponentChild)}

theorem couples_boundValue (within : coupling.Couples body inside) (typeName : Option String) :
    coupling.Couples (boundValue settings element body typeName)
      (boundValue settings element inside typeName) := by
  unfold boundValue
  split
  · exact couples_quiet (quiet_attributeValue _ _)
  · exact couples_quiet (quiet_fileValue _ _ _)
  · exact within.bind fun children => couples_quiet (quiet_readReported _ _ _)

/-- **An element that binds names.** -/
theorem couples_evaluateBinding (within : coupling.Couples body inside) :
    coupling.Couples (evaluateBinding settings element body)
      (evaluateBinding settings element inside) := by
  refine (couples_quiet (quiet_attributeText _ _)).bind fun name => ?_
  refine (couples_quiet (quiet_attributeText _ _)).bind fun typeName => ?_
  refine (couples_boundValue within typeName).bind fun value => ?_
  split
  · exact couples_pure ()
  · exact couples_bindName _ _
  · exact couples_bindNames _
  · exact couples_quiet (quiet_reportError _ _)

theorem couples_buildNode (component : Component) (within : coupling.Couples body inside) :
    coupling.Couples (buildNode settings component element body)
      (buildNode settings component element inside) := by
  refine (couples_quiet (quiet_elementProps _ _)).bind fun props => ?_
  refine within.bind fun children => ?_
  simp only
  split
  · exact (couples_quiet (quiet_embedMedia _ _)).bind fun props => couples_pure _
  · exact (couples_pure props).bind fun props => couples_pure _

/-- **An element once.** -/
theorem couples_expandOnce (component : Component)
    (includes : coupling.Couples (evaluateInclude settings file element)
      (evaluateInclude settings copy element))
    (within : coupling.Couples body inside) :
    coupling.Couples (expandOnce settings file component element body)
      (expandOnce settings copy component element inside) := by
  refine (couples_quiet (quiet_conditionHolds _)).bind fun holds => ?_
  split
  · split
    · exact (couples_evaluateBinding within).bind fun _ => couples_pure []
    · exact couples_lending includes
    · exact (couples_quiet (quiet_evaluateSchema (fun _ => trivial) _ _)).bind fun _ =>
        couples_pure []
    · exact (couples_quiet (quiet_evaluateSchema (fun _ => trivial) _ _)).bind fun _ =>
        couples_pure []
    · exact (couples_quiet (quiet_evaluateRuntime (fun _ => trivial) _)).bind fun _ =>
        couples_pure []
    · exact couples_pure []
    · exact couples_buildNode component within
  · exact couples_pure []

theorem couples_forEach (iterator : String) (length : Nat)
    {once again : Evaluate (List ComponentChild)} (within : coupling.Couples once again)
    (index : Nat) (items : List Value) :
    coupling.Couples (forEach iterator length once index items)
      (forEach iterator length again index items) := by
  induction items generalizing index with
  | nil => exact couples_pure []
  | cons item rest ih =>
    rw [forEach, forEach]
    refine (couples_lending ((couples_identified item).bind fun item => ?_)).bind fun first => ?_
    · exact couples_inFrame _ within
    · exact (ih (index + 1)).bind fun others => couples_pure _

/-- **An element**, as often as its loop says. -/
theorem couples_expandElement
    (includes : coupling.Couples (evaluateInclude settings file element)
      (evaluateInclude settings copy element))
    (within : coupling.Couples body inside) :
    coupling.Couples (expandElement settings file element body)
      (expandElement settings copy element inside) := by
  refine (couples_quiet (quiet_resolveElement _)).bind fun component => ?_
  have once := couples_expandOnce component includes within
  simp only
  split
  · exact once
  · split
    · refine (couples_quiet (quiet_loopItems _)).bind fun items => ?_
      exact couples_forEach _ _ once 0 items
    · exact couples_pure []
    · exact (couples_quiet (quiet_reportError _ _)).bind fun _ => couples_pure []

end Elements

/-! ### Contents -/

section Contents

variable {top : Node} {file copy : Root → Evaluate (List ComponentChild)}

/-- Pragmas below a node, and elements that include files, keep a relation. -/
structure CouplesBelow (coupling : Coupling) (settings : Settings) (top : Node)
    (file copy : Root → Evaluate (List ComponentChild)) : Prop where
  pragmas : ∀ node, top.Below (.pragma node) →
    coupling.Couples (applyPragma node) (applyPragma node)
  includes : ∀ element, coupling.Couples (evaluateInclude settings file element)
    (evaluateInclude settings copy element)

mutual

/-- **Contents one after the other.** -/
theorem couples_walkContents (each : CouplesBelow coupling settings top file copy)
    (contents : List Content) (below : ∀ content ∈ contents, top.Below content.node) :
    coupling.Couples (walkContents settings (expandElement settings file) contents)
      (walkContents settings (expandElement settings copy) contents) :=
  match contents with
  | [] => couples_pure []
  | content :: rest => by
    obtain ⟨here, later⟩ := List.forall_mem_cons.mp below
    rw [walkContents, walkContents]
    refine (couples_walkContent each content here).bind fun first => ?_
    exact (couples_walkContents each rest later).bind fun others => couples_pure _

theorem couples_walkContent (each : CouplesBelow coupling settings top file copy)
    (content : Content) (below : top.Below content.node) :
    coupling.Couples (walkContent settings (expandElement settings file) content)
      (walkContent settings (expandElement settings copy) content) :=
  match content with
  | .text node => couples_pure _
  | .template node => by
    rw [walkContent, walkContent]
    exact couples_quiet (quiet_evaluateTemplate node)
  | .comment node => couples_pure []
  | .pragma node => (each.pragmas node below).bind fun _ => couples_pure []
  | .element ⟨opening, body, closing, span⟩ => by
    rw [walkContent, walkContent]
    refine couples_expandElement (each.includes _) (couples_walkBody each body ?_)
    exact fun node member => below.tail (List.mem_cons_of_mem _ (List.mem_append_left _ member))

theorem couples_walkBody (each : CouplesBelow coupling settings top file copy) (body : Body)
    (below : ∀ node ∈ Node.bodyNodes body, top.Below node) :
    coupling.Couples (walkBody settings (expandElement settings file) body)
      (walkBody settings (expandElement settings copy) body) :=
  match body with
  | .selfClosing => couples_pure []
  | .literal text => couples_pure _
  | .children contents => by
    rw [walkBody, walkBody]
    refine couples_inFrame [] (couples_walkContents each contents fun content member => ?_)
    exact below _ (List.mem_map_of_mem member)

end

end Contents

/-! ### Pragmas and stylesheets -/

section Open

variable (opened : coupling.IsOpen)
include opened

theorem couples_modifyStylesheet (change : Stylesheet → Stylesheet) :
    coupling.Couples (modify fun state => { state with stylesheet := change state.stylesheet })
      (modify fun state => { state with stylesheet := change state.stylesheet }) := by
  intro first second related
  refine ⟨rfl, ?_⟩
  have changed := opened.stylesheet (change first.stylesheet) related
  simp only [StateT.run_modify]
  rw [← (coupling.alike related).stylesheet]
  exact changed

theorem couples_switchComponents (span : Span) (options : List String) :
    coupling.Couples (switchComponents span options) (switchComponents span options) := by
  induction options with
  | nil => exact couples_pure ()
  | cons option rest ih =>
    rw [switchComponents]
    refine couples_get_bind fun first second related => ?_
    rw [(coupling.alike related).registry]
    split
    next registry _ =>
      refine .bind (fun one other related => ⟨rfl, ?_⟩) fun _ => ih
      exact opened.registry registry related
    next => exact (couples_quiet (quiet_reportWarning _ _)).bind fun _ => ih

theorem couples_setSpacing (span : Span) (value : String) :
    coupling.Couples (setSpacing span value) (setSpacing span value) := by
  unfold setSpacing
  split
  · exact couples_modifyStylesheet opened _
  · exact couples_quiet (quiet_reportWarning _ _)

/-- **A pragma.** -/
theorem couples_applyPragma (pragma : Pragma) :
    coupling.Couples (applyPragma pragma) (applyPragma pragma) := by
  unfold applyPragma
  split
  · exact couples_switchComponents opened _ _
  · split
    · exact couples_quiet (quiet_setSingleSpeaker true)
    · exact couples_quiet (quiet_setSingleSpeaker false)
    · exact couples_quiet (quiet_reportWarning _ _)
  · exact couples_setSpacing opened _ _
  · exact couples_setSpacing opened _ _
  · exact couples_quiet (quiet_reportWarning _ _)

/-- **A stylesheet.** -/
theorem couples_addStylesheet (element : Element) :
    coupling.Couples (addStylesheet element) (addStylesheet element) := by
  unfold addStylesheet
  split
  next sheet _ => exact couples_modifyStylesheet opened fun before => before.merge sheet
  next => exact couples_quiet (quiet_reportError _ _)

end Open

mutual

theorem couples_addStylesheets (opened : coupling.IsOpen) (registry : Registry)
    (contents : List Content) :
    coupling.Couples (addStylesheets registry contents) (addStylesheets registry contents) :=
  match contents with
  | [] => couples_pure ()
  | content :: rest => by
    rw [addStylesheets]
    exact (couples_addStylesheetsOf opened registry content).bind fun _ =>
      couples_addStylesheets opened registry rest

theorem couples_addStylesheetsOf (opened : coupling.IsOpen) (registry : Registry)
    (content : Content) :
    coupling.Couples (addStylesheetsOf registry content) (addStylesheetsOf registry content) :=
  match content with
  | .element ⟨opening, body, closing, span⟩ => by
    rw [addStylesheetsOf]
    split
    · exact couples_addStylesheet opened _
    · exact couples_addStylesheetsIn opened registry body
  | .template _ => couples_pure ()
  | .comment _ => couples_pure ()
  | .pragma _ => couples_pure ()
  | .text _ => couples_pure ()

theorem couples_addStylesheetsIn (opened : coupling.IsOpen) (registry : Registry)
    (body : Body) :
    coupling.Couples (addStylesheetsIn registry body) (addStylesheetsIn registry body) :=
  match body with
  | .selfClosing => couples_pure ()
  | .literal _ => couples_pure ()
  | .children contents => by
    rw [addStylesheetsIn]
    exact couples_addStylesheets opened registry contents

end

/-! ### Files -/

section Files

variable {element : Element} {file copy : Root → Evaluate (List ComponentChild)}

/-- The faults of a file that is included are faults of its text. -/
theorem quiet_reportParsed (tags : LiteralTags) (anchor : Span) (path text : String) :
    Quiet (fun _ => True)
      (reportAll ((parse tags text).diagnostics.map (moveDiagnostic anchor path))) := by
  refine quiet_reportAll (List.forall_mem_map.mpr fun problem member => ?_)
  rw [moveDiagnostic, stage_of_mem_parse member]
  exact Stage.noConfusion

/-- Two runs inside of a file that has been entered, which are related by `inner` and have been
related by `outer` before: they evaluate the file in the same way, and are related by `outer` again
when they have left it, whether it has been read or not. -/
structure Encloses (settings : Settings) (element : Element) (outer inner : Coupling)
    (file copy : Root → Evaluate (List ComponentChild)) : Prop where
  left : inner.Carries outer leaveFile leaveFile
  inside : ∀ {first second} seed, inner.relates first second → ∃ nested : Coupling,
    nested.relates (nestedStart settings seed first) (nestedStart settings seed second) ∧
    (∀ root, nested.Couples (file root) (copy root)) ∧
    ∀ {one other} anchor path, nested.relates one other → outer.relates
      ((leaveFile >>= fun _ => absorbNested element anchor path one).run (nestedEnd one first)).2
      ((leaveFile >>= fun _ => absorbNested element anchor path other).run
        (nestedEnd other second)).2

/-- **The text of a file** that has been entered. -/
theorem Encloses.carries_includeText {outer inner : Coupling}
    (encloses : Encloses settings element outer inner file copy) (anchor : Span) (seed : Frame)
    (path text : String) :
    inner.Carries outer (includeText settings file element anchor seed path text)
      (includeText settings copy element anchor seed path text) := by
  refine (couples_quiet (quiet_reportParsed _ anchor path text)).bind fun _ => ?_
  -- The states behind the file are not the same, so that this is no step after another.
  intro first second related
  obtain ⟨nested, starts, same, absorbed⟩ := encloses.inside seed related
  obtain ⟨children, kept⟩ := same (parse settings.literalTags text).root _ _ starts
  exact ⟨congrArg (fun children => reanchorChildren element.span (withoutDocument children))
    children, absorbed anchor path kept⟩

/-- **The file at a path**, if both runs are in the same file once they have entered it. -/
theorem couples_includePath {outer : Coupling} (anchor : Span) (seed : Frame) (path : String)
    (entered : ∀ {first second inside}, outer.relates first second →
      first.loader.enter path = .ok inside → ∃ inner : Coupling,
        inner.relates ((moveTo inside).run first).2 ((moveTo inside).run second).2 ∧
        Encloses settings element outer inner file copy) :
    outer.Couples (includePath settings file element anchor seed path)
      (includePath settings copy element anchor seed path) := by
  intro first second related
  simp only [includePath, StateT.run_bind, StateT.run_get, pure_bind]
  rw [← (outer.alike related).loader]
  split
  next error _ =>
    have reported : outer.Couples (reportError anchor error.message) _ :=
      couples_quiet (quiet_reportError _ _)
    exact (reported.bind fun _ => couples_pure []) first second related
  next loader allowed =>
    obtain ⟨inner, moved, encloses⟩ := entered related allowed
    rw [StateT.run_bind, StateT.run_bind]
    refine ((couples_quiet (quiet_readFile anchor path)).bind fun text => ?_) _ _ moved
    cases text with
    | none => exact encloses.left.bind fun _ => couples_pure []
    | some text => exact encloses.carries_includeText anchor seed path text

theorem couples_includeSeed :
    coupling.Couples (includeSeed settings element) (includeSeed settings element) := by
  unfold includeSeed
  refine couples_get_bind fun first second related => ?_
  rw [(coupling.alike related).scope]
  simp only
  split
  · exact couples_pure _
  · refine (couples_quiet (quiet_attributeValue _ _)).bind fun value => ?_
    cases value with
    | none => exact couples_pure none
    | some value =>
      refine (couples_identified value).bind fun value => ?_
      split
      · exact couples_pure _
      · exact (couples_quiet (quiet_reportError _ _)).bind fun _ => couples_pure none

/-- **An element that includes a file**, as far as it does not enter the file. -/
theorem couples_evaluateInclude
    (entered : ∀ anchor seed path, coupling.Couples
      (includePath settings file element anchor seed path)
      (includePath settings copy element anchor seed path)) :
    coupling.Couples (evaluateInclude settings file element)
      (evaluateInclude settings copy element) := by
  unfold evaluateInclude
  split
  · exact (couples_quiet (quiet_reportError _ _)).bind fun _ => couples_pure []
  · refine (couples_quiet (quiet_attributeText _ _)).bind fun source => ?_
    cases source with
    | none => exact couples_pure []
    | some source =>
      refine couples_includeSeed.bind fun seed => ?_
      cases seed with
      | none => exact couples_pure []
      | some seed =>
        refine couples_get_bind fun first second related => ?_
        rw [(coupling.alike related).loader]
        exact entered _ _ _

/-- **A document**, as far as it enters no files. -/
theorem couples_evaluateRoot (opened : coupling.IsOpen)
    (entered : ∀ element anchor seed path, coupling.Couples
      (includePath settings file element anchor seed path)
      (includePath settings copy element anchor seed path)) (root : Root) :
    coupling.Couples (evaluateRoot settings file root) (evaluateRoot settings copy root) := by
  refine couples_get_bind fun first second related => ?_
  rw [(coupling.alike related).registry]
  refine (couples_addStylesheets opened _ _).bind fun _ => ?_
  have each : CouplesBelow coupling settings (.root root) file copy :=
    ⟨fun pragma _ => couples_applyPragma opened pragma, fun element =>
      couples_evaluateInclude (entered element)⟩
  refine couples_inFrame [] (couples_walkContents each _ fun content member => ?_)
  exact .single (List.mem_map_of_mem member)

end Files

end Evaluate

end PromptMarkup
