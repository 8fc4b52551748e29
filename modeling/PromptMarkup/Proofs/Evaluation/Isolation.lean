/-
**Siblings do not see one another.**

What some content leaves behind for the contents after it is the names that it binds, if it is a
binding, and what its pragmas say. Any other content, whatever fails, is repeated, included or
declared in it, leaves everything that a later content looks at as it was.

* `looking`: two runs that are looked at alike;
* `couples_evaluateFile`: a file evaluated in two runs that are looked at alike;
* `Reclaims`: a step behind which the identities given away in it are free again;
* `alike_walkContent`: what some content leaves as it was;
* `walkContents_isolates`: contents with and without one of them.
-/

import PromptMarkup.Proofs.Evaluation.Coupling
import PromptMarkup.Proofs.Evaluation.Restoring

namespace PromptMarkup

open Markup

/-! ### Two runs that are looked at alike -/

/-- Two runs that are looked at alike, with components and a stylesheet as `kept` says. -/
def looking (kept : Registry → Stylesheet → Prop) : Coupling where
  relates first second := first.Alike second ∧ kept first.registry first.stylesheet
  alike related := related.1
  quiet {_ _ first second} quiet related := by
    have here := quiet.alike first
    have there := quiet.alike second
    refine ⟨(here.trans related.1).trans there.symm, ?_⟩
    rw [here.registry, here.stylesheet]
    exact related.2
  rebound change related := ⟨related.1.rebind change, related.2⟩

/-- Components and a stylesheet of any kind. -/
def lookingAnywhere : Coupling := looking fun _ _ => True

theorem isOpen_lookingAnywhere : lookingAnywhere.IsOpen where
  registry _ related := ⟨⟨related.1.scope, related.1.loader, rfl, related.1.stylesheet,
    related.1.nextBuilder⟩, trivial⟩
  stylesheet _ related := ⟨⟨related.1.scope, related.1.loader, related.1.registry, rfl,
    related.1.nextBuilder⟩, trivial⟩

namespace Evaluate

open Coupling

variable {settings : Settings} {kept : Registry → Stylesheet → Prop}
  {file : Root → Evaluate (List ComponentChild)}

theorem couples_moveTo (loader : Loader) : (looking kept).Couples (moveTo loader) (moveTo loader) :=
  fun _ _ related => ⟨rfl, ⟨related.1.scope, rfl, related.1.registry, related.1.stylesheet,
    related.1.nextBuilder⟩, related.2⟩

theorem couples_leaveFile : (looking kept).Couples leaveFile leaveFile := by
  refine couples_get_bind fun first second related => ?_
  rw [related.1.loader]
  exact couples_moveTo _

/-- **A file looks at what is alike only**, and so do all that include it. -/
theorem looking_encloses (each : ∀ root, lookingAnywhere.Couples (file root) (file root))
    (element : Element) :
    Encloses settings element (looking kept) (looking kept) file file where
  left := couples_leaveFile
  inside {first second} seed related := by
    have starts : lookingAnywhere.relates (nestedStart settings seed first)
        (nestedStart settings seed second) :=
      ⟨⟨rfl, related.1.loader, related.1.registry, rfl, related.1.nextBuilder⟩, trivial⟩
    refine ⟨lookingAnywhere, starts, each, fun {one other} anchor path behind => ?_⟩
    exact ⟨⟨related.1.scope, congrArg Loader.leave behind.1.loader, related.1.registry,
      related.1.stylesheet, behind.1.nextBuilder⟩, related.2⟩

theorem couples_includePath_looking
    (each : ∀ root, lookingAnywhere.Couples (file root) (file root)) (element : Element)
    (anchor : Span) (seed : Frame) (path : String) :
    (looking kept).Couples (includePath settings file element anchor seed path)
      (includePath settings file element anchor seed path) := by
  refine couples_includePath anchor seed path fun {first second inside} related _ => ?_
  exact ⟨looking kept, (couples_moveTo inside _ _ related).2, looking_encloses each element⟩

/-- **A file goes the same way wherever it is looked at alike**, and leaves the same behind. -/
theorem couples_evaluateFile (depth : Nat) (root : Root) :
    lookingAnywhere.Couples (evaluateFile settings depth root)
      (evaluateFile settings depth root) := by
  -- What a file includes has one level less.
  induction depth generalizing root with
  | zero => exact couples_pure []
  | succ depth ih =>
    exact couples_evaluateRoot isOpen_lookingAnywhere
      (fun element => couples_includePath_looking ih element) root

/-- **Contents go the same way wherever they are looked at alike**, and keep what holds of the
components and the stylesheet if there are no pragmas in them. -/
theorem couples_looking (depth : Nat) {top : Node}
    (pragmas : ∀ pragma, top.Below (.pragma pragma) →
      (looking kept).Couples (applyPragma pragma) (applyPragma pragma)) :
    CouplesBelow (looking kept) settings top (evaluateFile settings depth)
      (evaluateFile settings depth) where
  pragmas := pragmas
  includes element := couples_evaluateInclude fun anchor seed path =>
    couples_includePath_looking (couples_evaluateFile depth) element anchor seed path

/-- Two runs that are looked at alike, with the components and the stylesheet of a state. -/
def lookingFrom (state : EvaluationState) : Coupling :=
  looking fun registry sheet => registry = state.registry ∧ sheet = state.stylesheet

/-- **A run set beside itself**: a step that keeps two runs alike keeps the components and the
stylesheet. -/
theorem kept_of_couples {α : Type} {step : Evaluate α} {state : EvaluationState}
    (couples : (lookingFrom state).Couples step step) :
    (step.run state).2.registry = state.registry ∧
      (step.run state).2.stylesheet = state.stylesheet :=
  (couples state state ⟨.refl state, rfl, rfl⟩).2.2

/-! ### Identities -/

/-- A step behind which all identities given away in it are free again. -/
def Reclaims {α : Type} (step : Evaluate α) : Prop :=
  ∀ state, (step.run state).2.nextBuilder = state.nextBuilder

variable {α β : Type}

theorem Quiet.reclaims {step : Evaluate α} (quiet : Quiet (fun _ => True) step) : Reclaims step :=
  fun state => (quiet.alike state).nextBuilder

/-- What comes behind a step may depend on what it hands on from a certain state. -/
theorem Reclaims.run_bind {first : Evaluate α} {next : α → Evaluate β} {state : EvaluationState}
    (here : Reclaims first) (later : Reclaims (next (first.run state).1)) :
    ((first >>= next).run state).2.nextBuilder = state.nextBuilder :=
  (later _).trans (here state)

theorem Reclaims.bind {first : Evaluate α} {next : α → Evaluate β} (here : Reclaims first)
    (later : ∀ value, Reclaims (next value)) : Reclaims (first >>= next) :=
  fun _ => here.run_bind (later _)

theorem reclaims_pure (value : α) : Reclaims (pure value : Evaluate α) := fun _ => rfl

theorem reclaims_lending (step : Evaluate α) : Reclaims (lending step) := fun _ => rfl

theorem reclaims_inFrame (frame : Frame) (step : Evaluate α) : Reclaims (inFrame frame step) :=
  reclaims_lending _

theorem reclaims_forEach (iterator : String) (length : Nat)
    (step : Evaluate (List ComponentChild)) (index : Nat) (items : List Value) :
    Reclaims (forEach iterator length step index items) := by
  induction items generalizing index with
  | nil => exact reclaims_pure []
  | cons item rest ih =>
    exact (reclaims_lending _).bind fun _ => (ih (index + 1)).bind fun _ => reclaims_pure _

section Elements

variable {element : Element} {body : Evaluate (List ComponentChild)}

theorem reclaims_buildNode (component : Component) (inside : Reclaims body) :
    Reclaims (buildNode settings component element body) := by
  refine (quiet_elementProps _ _).reclaims.bind fun props => inside.bind fun children => ?_
  simp only
  split
  · exact (quiet_embedMedia _ _).reclaims.bind fun props => reclaims_pure _
  · exact reclaims_pure _

theorem reclaims_expandOnce {component : Component} (other : component.kind ≠ .binding)
    (inside : Reclaims body) : Reclaims (expandOnce settings file component element body) := by
  refine (quiet_conditionHolds _).reclaims.bind fun holds => ?_
  split
  · split
    next binding => exact absurd binding other
    · exact reclaims_lending _
    · exact (quiet_evaluateSchema (fun _ => trivial) _ _).reclaims.bind fun _ => reclaims_pure []
    · exact (quiet_evaluateSchema (fun _ => trivial) _ _).reclaims.bind fun _ => reclaims_pure []
    · exact (quiet_evaluateRuntime (fun _ => trivial) _).reclaims.bind fun _ => reclaims_pure []
    · exact reclaims_pure []
    · exact reclaims_buildNode component inside
  · exact reclaims_pure []

/-- **An element** that is no binding, or is repeated. -/
theorem reclaims_expandElement {state : EvaluationState}
    (apart : (state.registry.resolve element.name).kind = .binding →
      element.attribute? "for" ≠ none) (inside : Reclaims body) :
    ((expandElement settings file element body).run state).2.nextBuilder = state.nextBuilder := by
  unfold expandElement
  refine (quiet_resolveElement element).reclaims.run_bind ?_
  rw [resolveElement_run]
  simp only
  split
  next absent =>
    exact reclaims_expandOnce (fun binding => apart binding absent) inside
  next pair _ =>
    split
    · refine (quiet_loopItems _).reclaims.bind fun items => ?_
      exact reclaims_forEach _ _ _ 0 items
    · exact reclaims_pure []
    · exact (quiet_reportError _ _).reclaims.bind fun _ => reclaims_pure []

theorem reclaims_walkBody (body : Body) :
    Reclaims (walkBody settings (expandElement settings file) body) := by
  cases body with
  | selfClosing => exact reclaims_pure []
  | literal text => exact reclaims_pure _
  | children contents => exact reclaims_inFrame [] _

end Elements

/-! ### Contents -/

/-- **An element leaves everything that is looked at as it was**, if it leaves the components and
the stylesheet, unless it is a binding that is not repeated. -/
theorem alike_element (depth : Nat) (element : Element) {state : EvaluationState}
    (apart : (state.registry.resolve element.name).kind = .binding →
      element.attribute? "for" ≠ none)
    (kept : let run := (walkContent settings
        (expandElement settings (evaluateFile settings depth)) (.element element)).run state
      run.2.registry = state.registry ∧ run.2.stylesheet = state.stylesheet) :
    ((walkContent settings (expandElement settings (evaluateFile settings depth))
      (.element element)).run state).2.Alike state := by
  have restored : (restoring state.registry).keeps .whole state
      ((walkContent settings (expandElement settings (evaluateFile settings depth))
        (.element element)).run state).2 :=
    restoring_element depth element (.refl _) fun binding absent => absurd absent (apart binding)
  obtain ⟨opening, body, closing, span⟩ := element
  rw [walkContent] at *
  refine ⟨restored.1, restored.2.1, kept.1, kept.2, ?_⟩
  exact reclaims_expandElement apart (reclaims_walkBody body)

/-- **Some content leaves everything that is looked at as it was**, unless it is a binding that is
not repeated or there are pragmas in it. -/
theorem alike_walkContent (depth : Nat) (content : Content) {state : EvaluationState}
    (plain : ∀ pragma, ¬ content.node.Below (.pragma pragma))
    (apart : ∀ element, content = .element element →
      (state.registry.resolve element.name).kind = .binding → element.attribute? "for" ≠ none) :
    ((walkContent settings (expandElement settings (evaluateFile settings depth))
      content).run state).2.Alike state := by
  cases content with
  | text node => exact .refl state
  | template node =>
    rw [walkContent]
    exact (quiet_evaluateTemplate node).alike state
  | comment node => exact .refl state
  | pragma node => exact absurd .refl (plain node)
  | element element =>
    have below : CouplesBelow (lookingFrom state) settings (Content.element element).node _ _ :=
      couples_looking depth fun pragma inside => absurd inside (plain pragma)
    exact alike_element depth element (apart element rfl)
      (kept_of_couples (couples_walkContent below _ .refl))

/-- Contents in two parts. -/
theorem walkContents_append (expand : Element → Evaluate (List ComponentChild) →
    Evaluate (List ComponentChild)) (first rest : List Content) :
    walkContents settings expand (first ++ rest) = do
      let children ← walkContents settings expand first
      return children ++ (← walkContents settings expand rest) := by
  induction first with
  | nil => simp [walkContents]
  | cons content others ih =>
    simp only [List.cons_append, walkContents, ih, bind_assoc, pure_bind, List.append_assoc]

/-- **Some content that leaves everything that is looked at as it was** is not noticed by the
contents behind it. -/
theorem isolates_of_alike (depth : Nat) (state : EvaluationState) (before after : List Content)
    (content : Content) :
    let expand := expandElement settings (evaluateFile settings depth)
    let run := fun contents => (walkContents settings expand contents).run
    let reached := (run before state).2
    ((walkContent settings expand content).run reached).2.Alike reached →
    (run (before ++ [content] ++ after) state).1 =
        (run before state).1 ++ (run [content] reached).1 ++ (run after reached).1 ∧
      (run (before ++ after) state).1 = (run before state).1 ++ (run after reached).1 := by
  intro expand run reached alike
  have parts : ∀ first rest state, (run (first ++ rest) state).1 =
      (run first state).1 ++ (run rest (run first state).2).1 := by
    intro first rest state
    simp only [run, walkContents_append, StateT.run_bind]
    rfl
  have below : CouplesBelow lookingAnywhere settings (.root ⟨after, ⟨0, 0⟩⟩) _ _ :=
    couples_looking depth fun pragma _ => couples_applyPragma isOpen_lookingAnywhere pragma
  have unnoticed : (run after (run [content] reached).2).1 = (run after reached).1 :=
    (couples_walkContents below after (fun content member => .single (List.mem_map_of_mem member))
      _ reached ⟨alike, trivial⟩).1
  refine ⟨?_, parts before after state⟩
  rw [List.append_assoc, parts before, parts [content], unnoticed, List.append_assoc]

end Evaluate

/-- **Siblings are isolated.** Some content that is no binding, or is repeated, and has no pragmas
in it, whatever fails, is suppressed, repeated, included and declared in it, adds its own children
and nothing else: the contents behind it stand for the children that they stand for without it. -/
theorem walkContents_isolates (settings : Settings) (depth : Nat) (state : EvaluationState)
    (before after : List Content) (content : Content)
    (plain : ∀ pragma, ¬ content.node.Below (.pragma pragma)) :
    let expand := Evaluate.expandElement settings (Evaluate.evaluateFile settings depth)
    let run := fun contents => (Evaluate.walkContents settings expand contents).run
    let reached := (run before state).2
    (∀ element, content = .element element →
      (reached.registry.resolve element.name).kind = .binding →
        element.attribute? "for" ≠ none) →
    (run (before ++ [content] ++ after) state).1 =
        (run before state).1 ++ (run [content] reached).1 ++ (run after reached).1 ∧
      (run (before ++ after) state).1 = (run before state).1 ++ (run after reached).1 := by
  intro expand run reached apart
  exact Evaluate.isolates_of_alike depth state before after content
    (Evaluate.alike_walkContent depth content plain apart)

/-- A file that cannot be found. -/
def missingFile : Element :=
  ⟨⟨"include", ⟨1, 8⟩, [⟨"src", ⟨9, 12⟩, some (.quoted ⟨"none", ⟨13, 19⟩, ⟨14, 18⟩⟩), ⟨9, 19⟩⟩],
    ⟨0, 22⟩⟩, .selfClosing, none, ⟨0, 22⟩⟩

theorem walkContents_isolates_missingFile :
    let loader : Loader := ⟨FileReader.ofTable [], "", 16, []⟩
    let state := EvaluationState.start .standard (.ofFrame []) loader .standard
    let expand := Evaluate.expandElement .standard (Evaluate.evaluateFile .standard 17)
    let run := fun contents => (Evaluate.walkContents .standard expand contents).run
    let before : List Content := [.text ⟨"a", ⟨0, 1⟩⟩]
    let after : List Content := [.text ⟨"b", ⟨23, 24⟩⟩]
    (run (before ++ [.element missingFile] ++ after) state).1 =
      (run before state).1 ++ (run [.element missingFile] (run before state).2).1 ++
        (run after (run before state).2).1 := by
  intro loader state expand run before after
  refine (walkContents_isolates .standard 17 state before after (.element missingFile)
    (Node.not_below_of_selfClosing rfl rfl) ?_).1
  intro element same binding
  obtain rfl := Content.element.inj same
  revert binding
  decide

end PromptMarkup
