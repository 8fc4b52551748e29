/-
**The files being included.**

A file that is entered comes in front of the files being included, unless it is among them or they
are too many already. So they never go deeper than a number allows, and an evaluation ends whatever
the files hold. An include that is refused is an error and nothing else.

* `Loader.Allows`: no file twice, and not too many of them;
* `FileHistory`: what is known of the files being included and of what has happened to them;
* `couples_evaluateRoot_within`: a document, by way of the files that can be entered from it;
* `couples_iterate`: levels of files below those that can be entered do not matter;
* `evaluateFully`: a document by way of as many levels of files as can be entered;
* `evaluateInclude_refused`: an include that breaks a rule;
* `evaluateDocument_includes`: an evaluation ends, its files are sound at all times, and an include
  that is refused leaves its siblings alone.
-/

import Mathlib.Data.List.Chain
import Mathlib.Logic.Function.Iterate
import PromptMarkup.Proofs.Evaluation.Isolation

namespace PromptMarkup

open Markup

/-! ### Entering files -/

namespace Loader

variable {loader inside : Loader} {path : String}

/-- Files that may be included in one another: none of them twice, and not too many of them. -/
def Allows (loader : Loader) (files : List String) : Prop :=
  (files.Pairwise fun inner outer => Path.same inner outer = false) ∧
    files.length ≤ loader.depthLimit

/-- The number of files that can still be entered. -/
def room (loader : Loader) : Nat := loader.depthLimit - loader.including.length

/-- **A file that can be entered** is not being included, and there is room for it. -/
theorem enter_ok (entered : loader.enter path = .ok inside) :
    (∀ file ∈ loader.including, Path.same path file = false) ∧
      loader.including.length < loader.depthLimit ∧
      inside = { loader with including := path :: loader.including } := by
  unfold enter at entered
  split at entered
  · cases entered
  next apart =>
    split at entered
    · cases entered
    next room =>
      refine ⟨fun file member => ?_, Nat.not_le.mp room, (Except.ok.inj entered).symm⟩
      exact Bool.eq_false_iff.mpr fun same => apart (List.any_eq_true.mpr ⟨file, member, same⟩)

/-- A file that is being included, or comes on top of too many, cannot be entered. -/
theorem enter_error (breaks : (∃ file ∈ loader.including, Path.same path file = true) ∨
    loader.depthLimit ≤ loader.including.length) : ∃ error, loader.enter path = .error error := by
  cases result : loader.enter path with
  | error error => exact ⟨error, rfl⟩
  | ok inside =>
    obtain ⟨apart, room, _⟩ := enter_ok result
    rcases breaks with ⟨file, member, same⟩ | full
    · exact absurd same (Bool.eq_false_iff.mp (apart file member))
    · exact absurd full (Nat.not_le.mpr room)

theorem Allows.enter (sound : loader.Allows loader.including)
    (entered : loader.enter path = .ok inside) : inside.Allows inside.including := by
  obtain ⟨apart, room, rfl⟩ := enter_ok entered
  exact ⟨.cons apart sound.1, room⟩

theorem Allows.leave (sound : inside.Allows inside.including)
    (entered : loader.enter path = .ok inside) : loader.Allows loader.including := by
  obtain ⟨_, room, rfl⟩ := enter_ok entered
  exact ⟨sound.1.of_cons, Nat.le_of_lt room⟩

/-- Entering a file takes room. -/
theorem room_lt (entered : loader.enter path = .ok inside) : inside.room < loader.room := by
  obtain ⟨_, room, rfl⟩ := enter_ok entered
  simp only [Loader.room, List.length_cons]
  omega

end Loader

/-! ### Histories -/

/-- What is known of the files being included and of what has happened, the last first: it still
holds when a file is entered and when it is left again. -/
structure FileHistory where
  holds : Loader → List Occurrence → Prop
  declared : ∀ {loader past} declaration, holds loader past →
    holds loader (.declared declaration :: past)
  entered : ∀ {loader inside : Loader} {path past}, loader.enter path = .ok inside →
    holds loader past → holds inside (.including inside.including :: past)
  left : ∀ {loader inside : Loader} {path past}, loader.enter path = .ok inside →
    holds inside past → holds loader (.including loader.including :: past)

namespace FileHistory

variable {history : FileHistory} {loader inside : Loader}

/-- Notes and declarations do not matter to the files being included. -/
theorem holds_of_leads {allowed : Schema.Declaration → Prop} {before after : EvaluationState}
    (leads : before.Leads allowed after)
    (holds : history.holds loader before.occurrences) :
    history.holds loader after.occurrences := by
  induction leads with
  | noted notes => rwa [notes.occurrences]
  | declared => exact history.declared _ holds
  | trans _ _ first second => exact second (first holds)

/-- Two runs that are in the same state while certain files are being included. -/
def within (history : FileHistory) (loader : Loader) : Coupling where
  relates first second :=
    first = second ∧ first.loader = loader ∧ history.holds loader first.occurrences
  alike := fun ⟨same, _⟩ => same ▸ .refl _
  quiet {_ _ first _} quiet related := by
    obtain ⟨rfl, files, holds⟩ := related
    have leads := quiet.leads first
    exact ⟨rfl, leads.alike.loader.trans files, holds_of_leads leads holds⟩
  rebound _ related := by
    obtain ⟨rfl, files, holds⟩ := related
    exact ⟨rfl, files, holds⟩

theorem isOpen_within : (history.within loader).IsOpen where
  registry _ related := by
    obtain ⟨rfl, files, holds⟩ := related
    exact ⟨rfl, files, holds⟩
  stylesheet _ related := by
    obtain ⟨rfl, files, holds⟩ := related
    exact ⟨rfl, files, holds⟩

end FileHistory

namespace Evaluate

open Coupling

variable {settings : Settings} {history : FileHistory} {loader inside : Loader} {path : String}
  {file copy : Root → Evaluate (List ComponentChild)}

/-! ### Levels of files -/

/-- A file that is entered is left again. -/
theorem encloses_of_enter (entered : loader.enter path = .ok inside)
    (each : ∀ root, (history.within inside).Couples (file root) (copy root)) (element : Element) :
    Encloses settings element (history.within loader) (history.within inside) file copy where
  left := by
    rintro first _ ⟨rfl, files, holds⟩
    have left : first.loader.leave = loader := files ▸ Loader.leave_of_enter entered
    refine ⟨rfl, rfl, left, ?_⟩
    exact (congrArg (fun files => history.holds loader (.including files.including :: _)) left).mpr
      (history.left entered holds)
  inside {first second} seed related := by
    obtain ⟨rfl, files, holds⟩ := related
    refine ⟨history.within inside, ⟨rfl, files, holds⟩, each, ?_⟩
    rintro one _ anchor path ⟨rfl, files, holds⟩
    have left : one.loader.leave = loader := files ▸ Loader.leave_of_enter entered
    refine ⟨rfl, left, ?_⟩
    exact (congrArg (fun files => history.holds loader (.including files.including :: _)) left).mpr
      (history.left entered holds)

/-- **A document**, if all files that can be entered from it go the same way. -/
theorem couples_evaluateRoot_within
    (each : ∀ {path inside}, loader.enter path = .ok inside →
      ∀ root, (history.within inside).Couples (file root) (copy root)) (root : Root) :
    (history.within loader).Couples (evaluateRoot settings file root)
      (evaluateRoot settings copy root) := by
  refine couples_evaluateRoot FileHistory.isOpen_within (fun element anchor seed path => ?_) root
  refine couples_includePath anchor seed path fun {first second inside} related allowed => ?_
  obtain ⟨rfl, files, holds⟩ := related
  rw [files] at allowed
  exact ⟨history.within inside, ⟨rfl, rfl, history.entered allowed holds⟩,
    encloses_of_enter allowed (each allowed) element⟩

/-- **Only so many levels of files are entered**, so that what is below them does not matter. -/
theorem couples_iterate (depth : Nat) (enough : loader.room < depth)
    (one other : Root → Evaluate (List ComponentChild)) (root : Root) :
    (history.within loader).Couples ((evaluateRoot settings)^[depth] one root)
      ((evaluateRoot settings)^[depth] other root) := by
  induction depth generalizing loader root with
  | zero => exact absurd enough (Nat.not_lt_zero _)
  | succ depth ih =>
    rw [Function.iterate_succ_apply', Function.iterate_succ_apply']
    refine couples_evaluateRoot_within (fun allowed root => ?_) root
    exact ih (Nat.lt_of_lt_of_le (Loader.room_lt allowed) (Nat.le_of_lt_succ enough)) root

/-- Levels of files on top of those that can be entered do not matter either. -/
theorem couples_levels {first second : Nat} (enough : loader.room < first)
    (plenty : loader.room < second) (one other : Root → Evaluate (List ComponentChild))
    (root : Root) :
    (history.within loader).Couples ((evaluateRoot settings)^[first] one root)
      ((evaluateRoot settings)^[second] other root) := by
  obtain ⟨more, rfl⟩ := Nat.exists_eq_add_of_le (Nat.succ_le_of_lt enough)
  obtain ⟨others, rfl⟩ := Nat.exists_eq_add_of_le (Nat.succ_le_of_lt plenty)
  rw [Function.iterate_add_apply, Function.iterate_add_apply]
  exact couples_iterate _ (Nat.lt_succ_self _) _ _ root

/-- Files with levels below them, one level after the other. -/
theorem evaluateFile_eq_iterate (depth : Nat) :
    evaluateFile settings depth = (evaluateRoot settings)^[depth] fun _ => pure [] := by
  induction depth with
  | zero => rfl
  | succ depth ih =>
    rw [Function.iterate_succ_apply', ← ih]
    rfl

/-- Nothing is known. -/
def anyHistory : FileHistory := ⟨fun _ _ => True, fun _ => id, fun _ => id, fun _ => id⟩

/-- Evaluates a document by way of as many levels of files as its state allows. -/
def evaluateFully (settings : Settings) (root : Root) : Evaluate (List ComponentChild) :=
  StateT.mk fun state => (evaluateFile settings (state.loader.depthLimit + 1) root).run state

theorem evaluateFully_run (settings : Settings) (root : Root) (state : EvaluationState) :
    (evaluateFully settings root).run state =
      ((evaluateRoot settings)^[state.loader.depthLimit + 1]
        (fun _ => pure []) root).run state := by
  rw [evaluateFully, StateT.run_mk, evaluateFile_eq_iterate]

theorem couples_evaluateFully {depth : Nat} (enough : loader.room < depth)
    (below : Root → Evaluate (List ComponentChild)) (root : Root) :
    (anyHistory.within loader).Couples ((evaluateRoot settings)^[depth] below root)
      (evaluateFully settings root) := by
  rintro state _ ⟨rfl, rfl, _⟩
  rw [evaluateFully_run]
  have room : state.loader.room < state.loader.depthLimit + 1 := Nat.lt_succ_of_le (Nat.sub_le _ _)
  exact couples_levels enough room below _ root state state ⟨rfl, rfl, trivial⟩

/-- **A document comes to what it does by way of all files that can be included**, whatever they
include in turn. -/
theorem evaluateFully_eq (settings : Settings) (root : Root) :
    evaluateFully settings root = evaluateRoot settings (evaluateFully settings) root := by
  funext state
  have each : ∀ {path inside}, state.loader.enter path = .ok inside → ∀ root,
      (anyHistory.within inside).Couples (evaluateFile settings state.loader.depthLimit root)
        (evaluateFully settings root) := by
    intro path inside allowed root
    rw [evaluateFile_eq_iterate]
    refine couples_evaluateFully ?_ _ root
    exact Nat.lt_of_lt_of_le (Loader.room_lt allowed) (Nat.sub_le _ _)
  obtain ⟨children, final, _⟩ :=
    couples_evaluateRoot_within each root state state ⟨rfl, rfl, trivial⟩
  exact Prod.ext children final

/-! ### Includes that are refused -/

/-- Steps add to the diagnostics and restore the files being included. -/
def appending (registry : Registry) : Conduct registry (fun _ => True) fun _ => True where
  keeps _ before after := (∃ more, after.diagnostics = before.diagnostics ++ more) ∧
    after.loader = before.loader ∧ after.registry.Resembles before.registry
  trans := by
    rintro _ first second third ⟨⟨more, here⟩, files, same⟩ ⟨⟨others, later⟩, left, again⟩
    refine ⟨⟨more ++ others, ?_⟩, left.trans files, again.trans same⟩
    rw [later, here, List.append_assoc]
  resembles kept := kept.2.2
  matching same := ⟨⟨[], by rw [same.diagnostics, List.append_nil]⟩, same.loader, same.registry⟩
  evaluated _ _ _ _ := ⟨⟨[], (List.append_nil _).symm⟩, rfl, .refl _⟩
  reported _ diagnostics _ := ⟨⟨diagnostics, rfl⟩, rfl, .refl _⟩
  bound _ _ _ := ⟨⟨[], (List.append_nil _).symm⟩, rfl, .refl _⟩
  framed _ inside := inside

section Refusing

variable {element : Element} {pair : Attribute} {source : String} {seed : Frame}
  {state : EvaluationState}

/-- An include that comes to the file that it names. -/
theorem evaluateInclude_run {asked ready : EvaluationState}
    (found : element.attribute? "src" = some pair)
    (named : (attributeText settings element "src").run state = pure (some source, asked))
    (seen : (includeSeed settings element).run asked = pure (some seed, ready)) :
    (evaluateInclude settings file element).run state =
      (includePath settings file element (valueSpan pair) seed
        (ready.loader.resolve source)).run ready := by
  unfold evaluateInclude
  rw [found]
  simp only
  rw [StateT.run_bind, named, pure_bind]
  simp only
  rw [StateT.run_bind, seen, pure_bind]
  simp only
  rw [StateT.run_bind, StateT.run_get, pure_bind]

/-- A file that cannot be entered is an error and stands for no children. -/
theorem includePath_error {anchor : Span} {error : LoadError}
    (refused : state.loader.enter path = .error error) :
    (includePath settings file element anchor seed path).run state =
      ([], { state with
        diagnostics := state.diagnostics ++ [.error .evaluate anchor error.message] }) := by
  unfold includePath
  rw [StateT.run_bind, StateT.run_get, pure_bind, refused]
  rfl

/-- The name and the context of an include, one after the other. The context does not depend on what
the name has put on record. -/
theorem exists_ready (named : ((attributeText settings element "src").run state).1 = some source)
    (seen : ((includeSeed settings element).run state).1 = some seed) :
    ∃ asked ready, (attributeText settings element "src").run state = pure (some source, asked) ∧
      (includeSeed settings element).run asked = pure (some seed, ready) ∧
      (appending state.registry).keeps .whole state ready := by
  have fits := isAllowed_anywhere state.registry element
  have quiet : Quiet (fun _ => True) (attributeText settings element "src") :=
    quiet_attributeText element "src"
  have asking : (appending state.registry).Keeps .whole (attributeText settings element "src") :=
    keeps_attributeText fits "src"
  have looked : lookingAnywhere.Couples (includeSeed settings element) _ := couples_includeSeed
  have here := asking state (.refl _)
  refine ⟨_, _, Prod.ext named rfl, Prod.ext ?_ rfl, (appending state.registry).trans here ?_⟩
  · exact (looked _ state ⟨quiet.alike state, trivial⟩).1.trans seen
  · exact keeps_includeSeed fits _ here.2.2

/-- **An include that breaks a rule** is an error at the attribute that names the file, and stands
for no children. -/
theorem evaluateInclude_refused (found : element.attribute? "src" = some pair)
    (named : ((attributeText settings element "src").run state).1 = some source)
    (seen : ((includeSeed settings element).run state).1 = some seed)
    (breaks : (∃ open' ∈ state.loader.including,
        Path.same (state.loader.resolve source) open' = true) ∨
      state.loader.depthLimit ≤ state.loader.including.length) :
    let run := (evaluateInclude settings file element).run state
    run.1 = [] ∧ run.2.loader = state.loader ∧ ∃ more error,
      state.loader.enter (state.loader.resolve source) = .error error ∧
      run.2.diagnostics = state.diagnostics ++ more ++
        [.error .evaluate (valueSpan pair) error.message] := by
  obtain ⟨asked, ready, here, later, ⟨more, grown⟩, files, _⟩ := exists_ready named seen
  obtain ⟨error, refused⟩ := Loader.enter_error breaks
  rw [← files] at refused ⊢
  simp only
  rw [evaluateInclude_run found here later, includePath_error refused]
  exact ⟨rfl, rfl, more, error, refused, congrArg (· ++ _) grown⟩

/-- An element that includes a file does not look at its body. -/
theorem expandElement_inclusion (kind : (state.registry.resolve element.name).kind = .inclusion)
    (body other : Evaluate (List ComponentChild)) :
    (expandElement settings file element body).run state =
      (expandElement settings file element other).run state := by
  have once : expandOnce settings file (state.registry.resolve element.name) element body =
      expandOnce settings file (state.registry.resolve element.name) element other := by
    unfold expandOnce
    rw [kind]
  have resolved : (resolveElement element).run state =
      pure (state.registry.resolve element.name, ((resolveElement element).run state).2) :=
    Prod.ext (resolveElement_run element state) rfl
  unfold expandElement
  rw [StateT.run_bind, StateT.run_bind, resolved, pure_bind, pure_bind]
  simp only [once]

/-- **An element that includes a file leaves everything that is looked at as it was**, whatever
stands in its body. -/
theorem alike_include (depth : Nat)
    (kind : (state.registry.resolve element.name).kind = .inclusion) :
    ((walkContent settings (expandElement settings (evaluateFile settings depth))
      (.element element)).run state).2.Alike state := by
  refine alike_element depth element (fun binding => ?_) ?_
  · exact absurd (kind.symm.trans binding) ComponentKind.noConfusion
  · obtain ⟨opening, body, closing, span⟩ := element
    rw [walkContent, expandElement_inclusion kind _ (pure [])]
    refine kept_of_couples (couples_expandElement ?_ (couples_pure []))
    exact couples_evaluateInclude fun anchor seed path =>
      couples_includePath_looking (couples_evaluateFile depth) _ anchor seed path

end Refusing

end Evaluate

/-! ### The files being included at all times -/

/-- The files being included at one time after the other. -/
def pastStacks (occurrences : List Occurrence) : List (List String) :=
  occurrences.filterMap fun
    | .including files => some files
    | .declared _ => none

/-- One file is entered, or the innermost one is left. -/
def IsStackStep (before after : List String) : Prop :=
  ∃ path, after = path :: before ∨ before = path :: after

/-- The files being included have been sound ever since there were none, and each time one has been
entered or left. -/
def stackHistory : FileHistory where
  holds loader past := loader.Allows loader.including ∧
    (∀ files ∈ pastStacks past, loader.Allows files) ∧
    ∃ earlier, pastStacks past ++ [[]] = loader.including :: earlier ∧
      (loader.including :: earlier).IsChain fun after before => IsStackStep before after
  declared _ holds := holds
  entered := by
    rintro loader inside path past allowed ⟨sound, always, earlier, same, steps⟩
    obtain ⟨_, _, rfl⟩ := Loader.enter_ok allowed
    have here := sound.enter allowed
    refine ⟨here, List.forall_mem_cons.mpr ⟨here, always⟩, _, congrArg (List.cons _) same, ?_⟩
    exact List.isChain_cons_cons.mpr ⟨⟨path, .inl rfl⟩, steps⟩
  left := by
    rintro loader inside path past allowed ⟨sound, always, earlier, same, steps⟩
    obtain ⟨_, _, rfl⟩ := Loader.enter_ok allowed
    have here := sound.leave allowed
    refine ⟨here, List.forall_mem_cons.mpr ⟨here, always⟩, _, congrArg (List.cons _) same, ?_⟩
    exact List.isChain_cons_cons.mpr ⟨⟨path, .inr rfl⟩, steps⟩

/-- **The files being included are sound at all times** of the evaluation of a document. -/
theorem evaluateDocument_stacks (settings : Settings) (loader : Loader) (scope : Scope)
    (root : Root) (outermost : loader.including = []) :
    let past := pastStacks (evaluateDocument settings loader scope root).occurrences
    ([] :: past).IsChain IsStackStep ∧
      ∀ files ∈ past, loader.Allows files := by
  let start := EvaluationState.start settings scope loader settings.registry
  have sound : loader.Allows loader.including := by
    rw [outermost]
    exact ⟨.nil, Nat.zero_le _⟩
  have starts : (stackHistory.within loader).relates start start := by
    refine ⟨rfl, rfl, sound, List.forall_mem_nil _, [], ?_, .singleton _⟩
    rw [outermost]
    rfl
  have enough : loader.room < loader.depthLimit + 1 := Nat.lt_succ_of_le (Nat.sub_le _ _)
  have run : (stackHistory.within loader).Couples
      (Evaluate.evaluateFile settings (loader.depthLimit + 1) root)
      (Evaluate.evaluateFile settings (loader.depthLimit + 1) root) := by
    rw [Evaluate.evaluateFile_eq_iterate]
    exact Evaluate.couples_iterate _ enough _ _ root
  obtain ⟨_, _, _, _, always, earlier, same, steps⟩ := run start start starts
  intro past
  have reversed : past = (pastStacks _).reverse := List.filterMap_reverse
  rw [reversed]
  constructor
  · rw [← same, ← List.isChain_reverse, List.reverse_concat] at steps
    exact steps
  · exact fun files member => always files (List.mem_reverse.mp member)

/-- **Evaluations end**, whatever the files hold and however they include one another.

* The recursion through included files has a solution, without any bound on how deep it goes. As
  many levels of it as files may be included in one another come to that solution, whatever stands
  for the files below them.
* The files being included change one at a time, are never twice the same and never too many.
* An include that would break either rule stands for no children and is reported as an error.
* The children of the contents around an include are what they are without it. -/
theorem evaluateDocument_includes (settings : Settings) :
    ((∀ root, Evaluate.evaluateFully settings root =
        Evaluate.evaluateRoot settings (Evaluate.evaluateFully settings) root) ∧
      ∀ (below : Root → Evaluate (List ComponentChild)) (root : Root) (state : EvaluationState)
        (depth : Nat), state.loader.depthLimit < depth →
        ((Evaluate.evaluateRoot settings)^[depth] below root).run state =
          (Evaluate.evaluateFully settings root).run state) ∧
    (∀ (read : FileReader) (directory : String) (limit : Nat) (scope : Scope) (root : Root),
      let run := evaluateDocument settings ⟨read, directory, limit, []⟩ scope root
      ([] :: pastStacks run.occurrences).IsChain IsStackStep ∧
        ∀ files ∈ pastStacks run.occurrences,
          (files.Pairwise fun inner outer => Path.same inner outer = false) ∧
            files.length ≤ limit) ∧
    (∀ (file : Root → Evaluate (List ComponentChild)) (state : EvaluationState)
      (element : Element) (pair : Attribute) (source : String) (seed : Frame),
      element.attribute? "src" = some pair →
      ((Evaluate.attributeText settings element "src").run state).1 = some source →
      ((Evaluate.includeSeed settings element).run state).1 = some seed →
      ((∃ open' ∈ state.loader.including,
          Path.same (state.loader.resolve source) open' = true) ∨
        state.loader.depthLimit ≤ state.loader.including.length) →
      let run := (Evaluate.evaluateInclude settings file element).run state
      run.1 = [] ∧ run.2.loader = state.loader ∧ ∃ more error,
        state.loader.enter (state.loader.resolve source) = .error error ∧
        run.2.diagnostics = state.diagnostics ++ more ++
          [.error .evaluate (Evaluate.valueSpan pair) error.message]) ∧
    ∀ (depth : Nat) (state : EvaluationState) (before after : List Content) (element : Element),
      let expand := Evaluate.expandElement settings (Evaluate.evaluateFile settings depth)
      let run := fun contents => (Evaluate.walkContents settings expand contents).run
      let reached := (run before state).2
      (reached.registry.resolve element.name).kind = .inclusion →
      (run (before ++ [.element element] ++ after) state).1 =
          (run before state).1 ++ (run [.element element] reached).1 ++ (run after reached).1 ∧
        (run (before ++ after) state).1 = (run before state).1 ++ (run after reached).1 := by
  refine ⟨⟨Evaluate.evaluateFully_eq settings, fun below root state depth enough => ?_⟩, ?_, ?_, ?_⟩
  · have room : state.loader.room < depth := Nat.lt_of_le_of_lt (Nat.sub_le _ _) enough
    obtain ⟨children, final, _⟩ :=
      Evaluate.couples_evaluateFully room below root state state ⟨rfl, rfl, trivial⟩
    exact Prod.ext children final
  · exact fun read directory limit scope root =>
      evaluateDocument_stacks settings ⟨read, directory, limit, []⟩ scope root rfl
  · exact fun file state element pair source seed found named seen breaks =>
      Evaluate.evaluateInclude_refused found named seen breaks
  · intro depth state before after element expand run reached kind
    exact Evaluate.isolates_of_alike depth state before after (.element element)
      (Evaluate.alike_include depth kind)

/-- A file that includes itself by its name. -/
def selfInclude : Element :=
  ⟨⟨"include", ⟨1, 8⟩, [⟨"src", ⟨9, 12⟩, some (.quoted ⟨"a", ⟨14, 15⟩, ⟨13, 16⟩⟩), ⟨9, 16⟩⟩],
    ⟨0, 19⟩⟩, .selfClosing, none, ⟨0, 19⟩⟩

/-- The state inside of a file that is included. -/
def insideFile : EvaluationState :=
  .start .standard (.ofFrame []) ⟨.ofTable [], "", 16, ["a"]⟩ .standard

theorem evaluateDocument_includes_itself :
    let file := Evaluate.evaluateFile .standard 17
    let run := (Evaluate.evaluateInclude .standard file selfInclude).run insideFile
    run.1 = [] ∧ ∃ more error,
      insideFile.loader.enter "a" = .error error ∧
      run.2.diagnostics = more ++ [.error .evaluate ⟨13, 16⟩ error.message] := by
  obtain ⟨_, _, refuses, _⟩ := evaluateDocument_includes .standard
  have run := refuses (Evaluate.evaluateFile .standard 17) insideFile selfInclude _ "a" [] rfl
    (by decide) rfl (.inl ⟨"a", by decide, by decide⟩)
  exact ⟨run.1, run.2.2⟩

end PromptMarkup
