/-
**What a compilation declares.**

Each file has a collector of its own, and an include adds what has been declared in the file to what
has been declared before. In the end the collector holds the declarations in the order that they
have been evaluated in, whatever files they stand in, and there is an error of that stage among the
diagnostics just when they are in error.

* `declarationsOf`: the declarations among what has happened;
* `EvaluationState.Tallies`: the collector of a file holds what has been declared in it and in the
  files that it includes, and failures are among the diagnostics;
* `couples_evaluateFile_tallying`: so it is in every file, with any number of files below it;
* `declares_evaluateSchema`: an element declares one thing whenever it is evaluated;
* `compile_declared`: what a compilation declares.
-/

import PromptMarkup.Compilation
import PromptMarkup.Proofs.Block.Regions
import PromptMarkup.Proofs.Evaluation.Coupling
import PromptMarkup.Proofs.Schema.Collecting

namespace PromptMarkup

open Markup

/-! ### Declarations -/

/-- The declarations among what has happened. -/
def declarationsOf (occurrences : List Occurrence) : List Schema.Declaration :=
  occurrences.filterMap fun
    | .including _ => none
    | .declared declaration => some declaration

theorem declarationsOf_concat_including (occurrences : List Occurrence) (files : List String) :
    declarationsOf (occurrences ++ [.including files]) = declarationsOf occurrences := by
  rw [declarationsOf, List.filterMap_append]
  exact List.append_nil _

theorem declarationsOf_concat_declared (occurrences : List Occurrence)
    (declaration : Schema.Declaration) :
    declarationsOf (occurrences ++ [.declared declaration]) =
      declarationsOf occurrences ++ [declaration] := by
  rw [declarationsOf, List.filterMap_append]
  rfl

theorem declarationsOf_append (occurrences others : List Occurrence) :
    declarationsOf (occurrences ++ others) = declarationsOf occurrences ++ declarationsOf others :=
  List.filterMap_append

/-! ### Collectors of files -/

namespace EvaluationState

/-- The collector of a file holds what has been declared since the file has been entered, when
`before` had happened, and it has failed if that has been reported in the file. -/
structure Tallies (before : List Occurrence) (state : EvaluationState) : Prop where
  collected : ∃ since, state.occurrences = since ++ before ∧
    state.schema.Holds (declarationsOf since.reverse)
  reported : state.schema.failed = true ↔ Schema.IsReported state.diagnostics

variable {before : List Occurrence} {state after : EvaluationState}

theorem Tallies.declare (tallies : state.Tallies before) (span : Span)
    (declaration : Schema.Declaration) :
    ((Evaluate.declare span declaration).run state).2.Tallies before := by
  obtain ⟨⟨since, same, holds⟩, reported⟩ := tallies
  refine ⟨⟨.declared declaration :: since, congrArg (List.cons _) same, ?_⟩, ?_⟩
  · rw [List.reverse_cons, declarationsOf_concat_declared]
    exact holds.add span declaration
  · refine (state.schema.reports_add span declaration).trans ?_
    rw [reported]
    exact (Schema.isReported_append ..).symm

theorem Tallies.of_notes (tallies : state.Tallies before) (notes : state.Notes after) :
    after.Tallies before := by
  obtain ⟨⟨since, same, holds⟩, reported⟩ := tallies
  obtain ⟨more, grown, others⟩ := notes.diagnostics
  rw [← notes.schema] at holds reported
  refine ⟨⟨since, notes.occurrences.trans same, holds⟩, reported.trans ?_⟩
  rw [grown, Schema.isReported_append]
  exact (or_iff_left (Schema.not_isReported others)).symm

/-- **Notes and declarations are tallied.** -/
theorem Tallies.of_leads {allowed : Schema.Declaration → Prop} (leads : state.Leads allowed after)
    (tallies : state.Tallies before) : after.Tallies before := by
  induction leads with
  | noted notes => exact tallies.of_notes notes
  | declared _ span _ => exact tallies.declare span _
  | trans _ _ first second => exact second (first tallies)

/-- Which files are being included does not matter. -/
theorem Tallies.moveTo (tallies : state.Tallies before) (loader : Loader) :
    ((Evaluate.moveTo loader).run state).2.Tallies before := by
  obtain ⟨⟨since, same, holds⟩, reported⟩ := tallies
  refine ⟨⟨.including loader.including :: since, congrArg (List.cons _) same, ?_⟩, reported⟩
  rwa [List.reverse_cons, declarationsOf_concat_including]

theorem Tallies.nestedStart (settings : Settings) (seed : Frame) (outer : EvaluationState) :
    (Evaluate.nestedStart settings seed outer).Tallies outer.occurrences :=
  ⟨⟨[], rfl, Schema.Collector.holds_empty⟩, by
    simp [Evaluate.nestedStart, start, Schema.Collector.empty, Schema.IsReported]⟩

/-- Notes of another file are notes of that stage where they are moved to. -/
theorem isReported_moveDiagnostic (anchor : Span) (path : String) (diagnostics : List Diagnostic) :
    Schema.IsReported (diagnostics.map (Evaluate.moveDiagnostic anchor path)) ↔
      Schema.IsReported diagnostics := by
  simp only [Schema.IsReported, List.mem_map, exists_exists_and_eq_and, Evaluate.moveDiagnostic]

/-- **A file that has been left adds what it declares**, and what is in error there is in error
where it is included. -/
theorem Tallies.absorb {final : EvaluationState} (tallies : state.Tallies before)
    (inside : final.Tallies state.occurrences) (element : Element) (anchor : Span)
    (path : String) :
    ((Evaluate.leaveFile >>= fun _ => Evaluate.absorbNested element anchor path final).run
      (Evaluate.nestedEnd final state)).2.Tallies before := by
  obtain ⟨⟨since, same, holds⟩, reported⟩ := tallies
  obtain ⟨⟨nested, later, others⟩, shown⟩ := inside
  refine ⟨⟨.including final.loader.leave.including :: (nested ++ since), ?_, ?_⟩, ?_⟩
  · refine congrArg (List.cons _) (later.trans ?_)
    rw [same, ← List.append_assoc]
    rfl
  · rw [List.reverse_cons, declarationsOf_concat_including, List.reverse_append,
      declarationsOf_append]
    exact holds.absorb others element.span
  · refine (Schema.Collector.reports_absorb state.schema final.schema element.span).trans ?_
    rw [Bool.or_eq_true, reported, shown, ← isReported_moveDiagnostic anchor path final.diagnostics,
      ← Schema.isReported_append, ← Schema.isReported_append]
    rfl

end EvaluationState

/-! ### Files -/

/-- Two runs in the same state, where the collector is that of a file that has been entered when
`before` had happened. -/
def tallying (before : List Occurrence) : Coupling where
  relates first second := first = second ∧ first.Tallies before
  alike := fun ⟨same, _⟩ => same ▸ .refl _
  quiet {_ _ first _} quiet related := by
    obtain ⟨rfl, tallies⟩ := related
    exact ⟨rfl, tallies.of_leads (quiet.leads first)⟩
  rebound _ related := by
    obtain ⟨rfl, collected, reported⟩ := related
    exact ⟨rfl, collected, reported⟩

theorem isOpen_tallying (before : List Occurrence) : (tallying before).IsOpen where
  registry _ related := by
    obtain ⟨rfl, collected, reported⟩ := related
    exact ⟨rfl, collected, reported⟩
  stylesheet _ related := by
    obtain ⟨rfl, collected, reported⟩ := related
    exact ⟨rfl, collected, reported⟩

namespace Evaluate

open Coupling

variable {settings : Settings} {file : Root → Evaluate (List ComponentChild)}
  {before : List Occurrence}

/-- **A file that is included** has a collector of its own. -/
theorem encloses_tallying (each : ∀ before root, (tallying before).Couples (file root) (file root))
    (element : Element) :
    Encloses settings element (tallying before) (tallying before) file file where
  left := by
    rintro first _ ⟨rfl, tallies⟩
    exact ⟨rfl, rfl, tallies.moveTo first.loader.leave⟩
  inside {first second} seed related := by
    obtain ⟨rfl, tallies⟩ := related
    refine ⟨tallying first.occurrences, ⟨rfl, .nestedStart settings seed first⟩, each _, ?_⟩
    rintro one _ anchor path ⟨rfl, inside⟩
    exact ⟨rfl, tallies.absorb inside element anchor path⟩

/-- **The declarations of a file are tallied**, with any number of files below it. -/
theorem couples_evaluateFile_tallying (depth : Nat) (before : List Occurrence) (root : Root) :
    (tallying before).Couples (evaluateFile settings depth root)
      (evaluateFile settings depth root) := by
  -- What a file includes has one level less.
  induction depth generalizing before root with
  | zero => exact couples_pure []
  | succ depth ih =>
    refine couples_evaluateRoot (isOpen_tallying before) (fun element anchor seed path => ?_) root
    refine couples_includePath anchor seed path fun {first second inside} related _ => ?_
    obtain ⟨rfl, tallies⟩ := related
    exact ⟨tallying before, ⟨rfl, tallies.moveTo inside⟩, encloses_tallying ih element⟩

/-! ### Elements -/

variable {α β : Type}

/-- What a step declares stands in a relation to what it hands on. -/
def Declares (fits : α → List Schema.Declaration → Prop) (step : Evaluate α) : Prop :=
  ∀ state, ∃ declared, fits (step.run state).1 declared ∧
    (step.run state).2.occurrences = (declared.map Occurrence.declared).reverse ++ state.occurrences

theorem Declares.bind {fits : α → List Schema.Declaration → Prop}
    {follows : β → List Schema.Declaration → Prop} {first : Evaluate α} {next : α → Evaluate β}
    (here : Declares fits first) (later : ∀ value declared, fits value declared →
      Declares (fun result more => follows result (declared ++ more)) (next value)) :
    Declares follows (first >>= next) := by
  intro state
  obtain ⟨declared, fitting, same⟩ := here state
  obtain ⟨more, following, then'⟩ := later _ declared fitting (first.run state).2
  refine ⟨declared ++ more, following, then'.trans ?_⟩
  rw [same, List.map_append, List.reverse_append, List.append_assoc]

/-- A step that declares nothing. -/
theorem Quiet.declares {step : Evaluate α} (quiet : Quiet (fun _ => False) step) :
    Declares (fun _ declared => declared = []) step :=
  fun state => ⟨[], rfl, (quiet.leads state).occurrences⟩

theorem declares_pure {fits : α → List Schema.Declaration → Prop} {value : α}
    (nothing : fits value []) : Declares fits (pure value) :=
  fun _ => ⟨[], nothing, rfl⟩

theorem declares_declare {fits : Unit → List Schema.Declaration → Prop} (span : Span)
    {declaration : Schema.Declaration} (one : fits () [declaration]) :
    Declares fits (declare span declaration) :=
  fun _ => ⟨[declaration], one, rfl⟩

theorem declares_refusal {fits : Option α → List Schema.Declaration → Prop} (span : Span)
    {message : String} (refused : fits none [.refused message]) :
    Declares fits (do failSchema span message; return none) :=
  fun _ => ⟨[.refused message], refused, rfl⟩

/-- A step that finds no value refuses a declaration, and declares nothing if it finds one. -/
def OrRefuses (value : Option α) (declared : List Schema.Declaration) : Prop :=
  match value with
  | none => ∃ message, declared = [.refused message]
  | some _ => declared = []

theorem declares_declaredParser (element : Element) :
    Declares OrRefuses (declaredParser settings element) := by
  refine (quiet_attributeText element "parser").declares.bind fun text _ nothing => ?_
  subst nothing
  cases text with
  | none => exact declares_pure rfl
  | some text =>
    simp only
    split
    · exact declares_pure rfl
    · exact declares_refusal _ ⟨_, rfl⟩

theorem declares_declaredSchema (element : Element) (parser : Schema.SchemaParser) :
    Declares OrRefuses (declaredSchema settings element parser) := by
  unfold declaredSchema
  simp only
  split
  · exact declares_refusal _ ⟨_, rfl⟩
  · split
    · refine (quiet_schemaOfExpression _ _).declares.bind fun result _ nothing => ?_
      subst nothing
      cases result with
      | ok schema => exact declares_pure rfl
      | error error => exact declares_refusal _ ⟨_, rfl⟩
    · refine (quiet_schemaOfJson _ _).declares.bind fun result _ nothing => ?_
      subst nothing
      cases result with
      | ok schema => exact declares_pure rfl
      | error error => exact declares_refusal _ ⟨_, rfl⟩

/-- What an element that declares a schema declares: nothing but a refusal, a tool if it is to be
one, and a schema of the response otherwise. -/
def IsSchemaOf (isTool : Bool) : Schema.Declaration → Prop
  | .refused _ => True
  | .tool _ _ _ => isTool = true
  | .response _ => isTool = false
  | .parameter _ _ => False

/-- **An element declares one thing whenever it is evaluated**, whatever fails on the way. -/
theorem declares_evaluateSchema (isTool : Bool) (element : Element) :
    Declares (fun _ declared => ∃ declaration, declared = [declaration] ∧
      IsSchemaOf isTool declaration) (evaluateSchema settings isTool element) := by
  refine (declares_declaredParser element).bind fun parser declared fitting => ?_
  cases parser with
  | none =>
    obtain ⟨message, rfl⟩ := fitting
    exact declares_pure ⟨_, rfl, trivial⟩
  | some parser =>
    obtain rfl : declared = [] := fitting
    refine (declares_declaredSchema element parser).bind fun schema declared fitting => ?_
    cases schema with
    | none =>
      obtain ⟨message, rfl⟩ := fitting
      exact declares_pure ⟨_, rfl, trivial⟩
    | some schema =>
      obtain rfl : declared = [] := fitting
      simp only
      split
      next tool =>
        refine (quiet_attributeText element "name").declares.bind fun name _ nothing => ?_
        subst nothing
        refine (quiet_attributeText element "description").declares.bind fun text _ nothing => ?_
        subst nothing
        exact declares_declare _ ⟨_, rfl, tool⟩
      next response =>
        exact declares_declare _ ⟨_, rfl, Bool.eq_false_iff.mpr response⟩

end Evaluate

/-! ### Compilations -/

/-- The collector of a document holds what has been declared in all of the run, and it has failed if
that has been reported. -/
theorem exists_collector (settings : Settings) (loader : Loader) (scope : Scope) (root : Root) :
    let run := evaluateDocument settings loader scope root
    ∃ collector : Schema.Collector, run.schema = collector.outcome ∧
      collector.Holds (declarationsOf run.occurrences) ∧
      (collector.failed = true ↔ Schema.IsReported run.diagnostics) := by
  intro run
  let start := EvaluationState.start settings scope loader settings.registry
  have starts : (tallying []).relates start start :=
    ⟨rfl, ⟨[], rfl, Schema.Collector.holds_empty⟩,
      iff_of_false Bool.false_ne_true fun ⟨_, member, _⟩ => List.not_mem_nil member⟩
  have tallied : (tallying []).Couples (Evaluate.evaluateFile settings (loader.depthLimit + 1) root)
      _ := Evaluate.couples_evaluateFile_tallying _ [] root
  obtain ⟨_, _, ⟨since, same, holds⟩, reported⟩ := tallied start start starts
  have past : run.occurrences = since.reverse :=
    congrArg List.reverse (same.trans (List.append_nil since))
  exact ⟨_, rfl, past ▸ holds, reported⟩

/-- Only evaluations report errors in declarations. -/
theorem isReported_compile (options : CompileOptions) (source : String) (scope : Scope) :
    let prompt := Prompt.ofSource options source
    let run := evaluateDocument options.settings options.loader scope prompt.parsed.root
    Schema.IsReported (prompt.compile scope).diagnostics ↔ Schema.IsReported run.diagnostics := by
  intro prompt run
  have parsed : ¬ Schema.IsReported prompt.parsed.diagnostics :=
    Schema.not_isReported fun problem member =>
      stage_of_mem_parse member ▸ Stage.noConfusion
  have written : ¬ Schema.IsReported run.tree.problems := by
    refine Schema.not_isReported fun problem member => ?_
    obtain ⟨_, _, _, rfl⟩ := run.tree.exists_warning_of_mem_problems problem member
    exact Stage.noConfusion
  refine (Schema.isReported_append _ _).trans ((or_iff_left written).trans ?_)
  exact (Schema.isReported_append _ _).trans (or_iff_right parsed)

/-- **What a compilation declares**, for every source, scope and set of files.

There is an error in a declaration among the diagnostics just when a declaration that has been
evaluated is refused, a tool has no name, or there are two schemas of the response, in whatever
files. Then neither a schema nor tools are handed out. Otherwise these are the schema that has been
evaluated, if there is one, and the tools that have been evaluated, in that order, each with a name
without blanks around it. The runtime parameters are handed out in either case.

Elements that declare a schema declare one thing whenever they are evaluated, whatever fails. -/
theorem compile_declared (options : CompileOptions) (source : String) (scope : Scope) :
    let prompt := Prompt.ofSource options source
    let compilation := prompt.compile scope
    let declarations := declarationsOf (evaluateDocument options.settings options.loader scope
      prompt.parsed.root).occurrences
    let fails := Schema.IsReported compilation.diagnostics
    let declared := compilation.declared
    (fails ↔ Schema.HasFault declarations) ∧
      (fails → declared.responseSchema = none ∧ declared.tools = []) ∧
      (¬ fails →
        declared.responseSchema.toList =
          declarations.filterMap Schema.Declaration.response? ∧
        declared.tools = declarations.filterMap Schema.Declaration.tool? ∧
        ∀ tool ∈ declared.tools,
          tool.name ≠ "" ∧ ∃ written, tool.name = Text.trimmed written) ∧
      declared.runtime =
        Fields.insertAll [] (declarations.filterMap Schema.Declaration.parameter?) ∧
      ∀ isTool element state, ∃ declaration, Evaluate.IsSchemaOf isTool declaration ∧
        ((Evaluate.evaluateSchema options.settings isTool element).run state).2.occurrences =
          .declared declaration :: state.occurrences := by
  intro prompt compilation declarations fails declared
  obtain ⟨collector, same, holds, failed⟩ := exists_collector options.settings options.loader scope
    prompt.parsed.root
  have reported : collector.failed = true ↔ fails :=
    failed.trans (isReported_compile options source scope).symm
  have outcome : declared = collector.outcome := same
  refine ⟨reported.symm.trans holds.failed, fun fault => ?_, fun sound => ?_, ?_, ?_⟩
  · rw [outcome, Schema.Collector.outcome, if_pos (reported.mpr fault)]
    exact ⟨rfl, rfl⟩
  · have unfailed : ¬ collector.failed = true := mt reported.mp sound
    have faultless := mt holds.failed.mpr unfailed
    rw [outcome, Schema.Collector.outcome, if_neg unfailed]
    exact ⟨holds.response_toList faultless, holds.tools_eq faultless, fun _ => holds.name_trimmed⟩
  · rw [outcome, Schema.Collector.outcome, ← holds.runtime]
    split <;> rfl
  · intro isTool element state
    obtain ⟨_, ⟨declaration, rfl, one⟩, past⟩ :=
      Evaluate.declares_evaluateSchema isTool element state
    exact ⟨declaration, one, past⟩

end PromptMarkup
