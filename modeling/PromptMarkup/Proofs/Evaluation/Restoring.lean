/-
**Scopes and files are left as they were found.**

Frames are pushed for bodies, for the items of loops and for files, and files are entered for
includes. Whatever fails in between, every frame that is pushed is popped again and every file that
is entered is left. Names are bound in the innermost frame only, so that what is around the contents
of a body never changes.

* `Reach.Restores`: how much of a scope is as it was;
* `restoring`: what steps restore, as a relation that all of them keep;
* `Leaves`: a step that leaves the innermost file being included;
* `walkContents_restores`: what contents, and a single element among them, restore.
-/

import PromptMarkup.Proofs.Evaluation.Walk

namespace PromptMarkup

open Markup

/-! ### Scopes -/

/-- A scope is as it was as far as a step leaves it. -/
def Reach.Restores (reach : Reach) (before after : Scope) : Prop :=
  match reach with
  | whole => after = before
  | outer => after.frames.tail = before.frames.tail

namespace Reach.Restores

variable {reach : Reach} {before after : Scope}

theorem of_eq (same : after = before) : reach.Restores before after := by
  cases reach with
  | whole => exact same
  | outer => exact congrArg (fun scope => scope.frames.tail) same

theorem trans {last : Scope} (first : reach.Restores before after)
    (second : reach.Restores after last) : reach.Restores before last := by
  cases reach with
  | whole => exact Eq.trans second first
  | outer => exact Eq.trans second first

/-- A name is bound in the innermost frame. -/
theorem set (name : String) (value : Value) (scope : Scope) :
    Reach.outer.Restores scope (scope.set name value) := by
  obtain ⟨root, inner⟩ := scope
  cases inner <;> rfl

/-- **A frame that is popped takes all with it that was bound in it.** -/
theorem pop {frame : Frame} (inside : Reach.outer.Restores (before.push frame) after) :
    reach.Restores before after.pop := by
  refine of_eq ?_
  obtain ⟨root, inner⟩ := after
  replace inside : (inner ++ [root]).tail = before.inner ++ [before.root] := inside
  cases inner with
  | nil => exact absurd inside.symm (List.append_ne_nil_of_right_ne_nil _ (List.cons_ne_nil _ _))
  | cons first rest =>
    obtain ⟨same, last⟩ := List.append_inj' inside rfl
    rw [Scope.pop, List.tail_cons, same, List.cons.inj last |>.1]

end Reach.Restores

/-- **A file that is entered can be left again.** -/
theorem Loader.leave_of_enter {loader inside : Loader} {path : String}
    (entered : loader.enter path = .ok inside) : inside.leave = loader := by
  unfold Loader.enter at entered
  split at entered
  · cases entered
  · split at entered
    · cases entered
    · obtain rfl := Except.ok.inj entered
      rfl

/-! ### Restoring steps -/

/-- Steps restore the scope, and the files being included. -/
def restoring (registry : Registry) : Conduct registry (fun _ => True) fun _ => True where
  keeps reach before after := reach.Restores before.scope after.scope ∧
    after.loader = before.loader ∧ after.registry.Resembles before.registry
  trans first second := ⟨first.1.trans second.1, second.2.1.trans first.2.1,
    second.2.2.trans first.2.2⟩
  resembles kept := kept.2.2
  matching same := ⟨.of_eq same.scope, same.loader, same.registry⟩
  evaluated _ _ _ _ := ⟨.of_eq rfl, rfl, .refl _⟩
  reported _ _ _ := ⟨.of_eq rfl, rfl, .refl _⟩
  bound state name value := ⟨.set name value state.scope, rfl, .refl _⟩
  framed _ inside := ⟨.pop inside.1, inside.2⟩

namespace Evaluate

open Conduct

variable {settings : Settings} {registry : Registry} {reach : Reach} {α β : Type}

/-! ### Files -/

/-- A step leaves the innermost file that is being included, and restores all else. -/
def Leaves (registry : Registry) (step : Evaluate α) : Prop :=
  ∀ state, state.registry.Resembles registry → (restoring registry).keeps .whole
    { state with loader := state.loader.leave } (step.run state).2

theorem leaves_leaveFile : Leaves registry leaveFile :=
  fun _ _ => ⟨.of_eq rfl, rfl, .refl _⟩

/-- What comes behind a step that restores everything leaves the file. -/
theorem Leaves.after {first : Evaluate α} {next : α → Evaluate β}
    (here : (restoring registry).Keeps .whole first)
    (later : ∀ value, Leaves registry (next value)) : Leaves registry (first >>= next) := by
  intro state same
  obtain ⟨scope, loader, components⟩ := here state same
  have left : (restoring registry).keeps .whole { state with loader := state.loader.leave }
      { (first.run state).2 with loader := (first.run state).2.loader.leave } :=
    ⟨scope, congrArg Loader.leave loader, components⟩
  exact (restoring registry).trans left (later _ _ (components.trans same))

/-- What comes behind a step that leaves the file restores everything. -/
theorem Leaves.before {first : Evaluate α} {next : α → Evaluate β} (here : Leaves registry first)
    (later : ∀ value, (restoring registry).Keeps .whole (next value)) :
    Leaves registry (first >>= next) := by
  intro state same
  have left := here state same
  exact (restoring registry).trans left (later _ _ (left.2.2.trans same))

/-- A step that leaves a file restores everything from where the file has been entered. -/
theorem Leaves.restores {step : Evaluate α} {state : EvaluationState} {path : String}
    {inside : Loader} (left : Leaves registry step) (same : state.registry.Resembles registry)
    (entered : state.loader.enter path = .ok inside) :
    (restoring registry).keeps reach state ((moveTo inside >>= fun _ => step).run state).2 := by
  let moved := ((moveTo inside).run state).2
  obtain ⟨scope, files, components⟩ := left moved same
  rw [show moved.loader = inside from rfl, Loader.leave_of_enter entered] at files
  exact ⟨.of_eq scope, files, components⟩

/-- A file that is evaluated on its own leaves the files being included as they are. -/
theorem restoring_runNested (seed : Frame) {step : Evaluate (List ComponentChild)}
    (inside : (restoring registry).Keeps .whole step) :
    (restoring registry).Keeps reach (runNested settings seed step) :=
  fun state same => ⟨.of_eq rfl, (inside (nestedStart settings seed state) same).2.1, .refl _⟩

theorem restoring_absorbNested (element : Element) (anchor : Span) (path : String)
    (nested : EvaluationState) :
    (restoring registry).Keeps reach (absorbNested element anchor path nested) := by
  refine (keeps_reportAll fun _ _ => trivial).bind fun _ => ?_
  refine .bind (fun _ _ => ⟨.of_eq rfl, rfl, .refl _⟩) fun _ => ?_
  refine (keeps_collect fun _ _ _ => trivial).bind fun _ => ?_
  exact keeps_of_matches fun _ => ⟨rfl, rfl, rfl, rfl, rfl, .refl _⟩

section Includes

variable {file : Root → Evaluate (List ComponentChild)}

theorem leaves_includeText (each : ∀ root, (restoring registry).Keeps .whole (file root))
    (element : Element) (anchor : Span) (seed : Frame) (path text : String) :
    Leaves registry (includeText settings file element anchor seed path text) := by
  unfold includeText
  refine .after (keeps_reportAll fun _ _ => trivial) fun _ => ?_
  refine .after (restoring_runNested seed (each _)) fun result => ?_
  refine leaves_leaveFile.before fun _ => ?_
  exact (restoring_absorbNested element anchor path result.2).bind fun _ => keeps_pure _

/-- **A file that is entered is left**, whether it can be read or not. -/
theorem restoring_includePath (each : ∀ root, (restoring registry).Keeps .whole (file root))
    (element : Element) (anchor : Span) (seed : Frame) (path : String) :
    (restoring registry).Keeps reach (includePath settings file element anchor seed path) := by
  intro state same
  unfold includePath
  rw [StateT.run_bind, StateT.run_get, pure_bind]
  simp only
  split
  next error _ =>
    exact ((keeps_reportError _ trivial).bind fun _ => keeps_pure []) state same
  next loader entered =>
    refine Leaves.restores (.after (keeps_readFile path trivial) fun text => ?_) same entered
    cases text with
    | none => exact leaves_leaveFile.before fun _ => keeps_pure []
    | some text => exact leaves_includeText each element anchor seed path text

/-- **An element that includes a file restores everything.** -/
theorem restoring_evaluateInclude (each : ∀ root, (restoring registry).Keeps .whole (file root))
    (element : Element) :
    (restoring registry).Keeps reach (evaluateInclude settings file element) :=
  keeps_evaluateInclude (isAllowed_anywhere _ element) fun _ _ seed path =>
    restoring_includePath each element _ seed path

end Includes

/-- **A file restores everything**, with any number of files below it. -/
theorem restoring_evaluateFile (depth : Nat) (root : Root) :
    (restoring registry).Keeps .whole (evaluateFile settings depth root) := by
  -- What a file includes has one level less.
  induction depth generalizing root with
  | zero => exact keeps_pure []
  | succ depth ih =>
    refine keeps_evaluateFile (fun _ _ => ⟨trivial, trivial⟩) (fun _ _ => trivial)
      (fun element _ => isAllowed_anywhere _ element) ?_
    intro element reach _ _
    exact restoring_evaluateInclude ih element

/-! ### Contents -/

/-- Everything below a node restores what it finds, where files do. -/
theorem restoring_below {file : Root → Evaluate (List ComponentChild)}
    (each : ∀ root, (restoring registry).Keeps .whole (file root)) (top : Node) :
    KeepsBelow (restoring registry) settings top (expandElement settings file) := by
  refine ⟨fun _ _ => ⟨trivial, trivial⟩, fun _ _ => trivial, fun element body _ inside => ?_⟩
  exact keeps_expandElement (isAllowed_anywhere _ element)
    (fun _ => restoring_evaluateInclude each element) inside

/-- **An element restores everything** unless it is a binding that is not repeated. -/
theorem restoring_element (depth : Nat) (element : Element) {state : EvaluationState}
    (same : state.registry.Resembles registry)
    (outer : (state.registry.resolve element.name).kind = .binding →
      element.attribute? "for" = none → reach = .outer) :
    (restoring registry).keeps reach state
      ((walkContent settings (expandElement settings (evaluateFile settings depth))
        (.element element)).run state).2 := by
  obtain ⟨opening, body, closing, span⟩ := element
  have each : ∀ root, (restoring registry).Keeps .whole (evaluateFile settings depth root) :=
    restoring_evaluateFile depth
  rw [walkContent]
  refine keeps_expandElement_run same outer (isAllowed_anywhere _ _)
    (fun _ => restoring_evaluateInclude each _) ?_
  refine keeps_walkBody (restoring_below each (.element ⟨opening, body, closing, span⟩)) body ?_
  exact fun node member => .single (List.mem_cons_of_mem _ (List.mem_append_left _ member))

end Evaluate

/-- **What contents restore**, whatever is bound, included and missing in them and whatever fails.
Contents in a frame of their own leave all of the scope and the files being included as they were.
An element among them leaves all frames but the innermost one as they were, and the innermost one,
too, unless it is a binding that is not repeated. -/
theorem walkContents_restores (settings : Settings) (depth : Nat) (state : EvaluationState) :
    let expand := Evaluate.expandElement settings (Evaluate.evaluateFile settings depth)
    (∀ contents,
      let final := ((Evaluate.inFrame [] (Evaluate.walkContents settings expand contents)).run
        state).2
      final.scope = state.scope ∧ final.loader = state.loader) ∧
    ∀ element,
      let final := ((Evaluate.walkContent settings expand (.element element)).run state).2
      final.loader = state.loader ∧ final.scope.frames.tail = state.scope.frames.tail ∧
        (final.scope ≠ state.scope → element.attribute? "for" = none ∧
          (state.registry.resolve element.name).kind = .binding) := by
  intro expand
  constructor
  · intro contents
    have kept : (restoring state.registry).Keeps .whole
        (Evaluate.inFrame [] (Evaluate.walkContents settings expand contents)) := by
      refine Evaluate.keeps_inFrame [] (Evaluate.keeps_walkContents
        (Evaluate.restoring_below (Evaluate.restoring_evaluateFile depth)
          (.root ⟨contents, ⟨0, 0⟩⟩)) contents ?_)
      exact fun content member => .single (List.mem_map_of_mem member)
    obtain ⟨scope, loader, _⟩ := kept state (.refl _)
    exact ⟨scope, loader⟩
  · intro element
    have run : ∀ reach, ((state.registry.resolve element.name).kind = .binding →
        element.attribute? "for" = none → reach = .outer) →
        (restoring state.registry).keeps reach state
          ((Evaluate.walkContent settings expand (.element element)).run state).2 :=
      fun reach outer => Evaluate.restoring_element depth element (.refl _) outer
    obtain ⟨frames, loader, _⟩ := run .outer fun _ _ => rfl
    refine ⟨loader, frames, fun changed => ?_⟩
    by_contra other
    obtain ⟨scope, _⟩ := run .whole fun binding alone => absurd ⟨alone, binding⟩ other
    exact changed scope

end PromptMarkup
