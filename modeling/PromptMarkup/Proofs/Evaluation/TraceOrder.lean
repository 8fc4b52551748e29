/-
**The order of values in a trace.**

A trace holds every evaluation of a run once, under the range that it is reported at, its text and
its kind, and its records come in the order of first evaluations. The values of a record come in the
order of their evaluations if those stand at one place of one file. Expressions with the same text
at two places of an included file share a record, in which the values of the first place come first,
whatever happened in between.

* `faithful`: a trace is what its history makes it, which every step keeps;
* `keeps_includeText`: what is taken over from an included file;
* `evaluateDocument_trace`: the trace of a document against the journal of its evaluation.
-/

import PromptMarkup.Proofs.Evaluation.Walk
import PromptMarkup.Proofs.Evaluation.Sorting

namespace PromptMarkup

open Markup

/-! ### Faithful traces -/

/-- The trace groups the evaluations of its history in the order they came into it. -/
structure EvaluationState.IsFaithful (settings : Settings) (state : EvaluationState) : Prop where
  trace : state.trace = ⟨grouped (settled state.events)⟩
  registry : state.registry.Resembles settings.registry

/-- Evaluations at any place keep a trace faithful. -/
def faithful (settings : Settings) : Invariant settings fun _ => True where
  holds := EvaluationState.IsFaithful settings
  registry := EvaluationState.IsFaithful.registry
  frame := by
    intro state other holds trace events registry
    refine ⟨?_, registry.trans holds.registry⟩
    rw [trace, events, holds.trace]
  evaluated := by
    intro state key value holds _
    refine ⟨?_, holds.registry⟩
    rw [holds.trace, settled_append]
    exact congrArg Trace.mk (addTo_grouped _ ⟨[], key.span, key.expression, key.kind, value⟩)

theorem isFaithful_start (settings : Settings) (scope : Scope) (loader : Loader)
    {registry : Registry} (same : registry.Resembles settings.registry) :
    (EvaluationState.start settings scope loader registry).IsFaithful settings := ⟨rfl, same⟩

namespace Evaluate

open Conduct

variable {settings : Settings} {reach : Reach}

/-- **Taking over an included file keeps a trace faithful** if that of the file is. -/
theorem keeps_absorbNested (element : Element) (anchor : Span) (file : String)
    {nested : EvaluationState} (inside : nested.IsFaithful settings) :
    (faithful settings).conduct.Keeps reach (absorbNested element anchor file nested) := by
  refine (keeps_reportAll fun _ _ => trivial).bind fun _ => ?_
  have taken : (faithful settings).conduct.Keeps reach (modify fun state => { state with
      trace := state.trace.absorb nested.trace element.span
      events := state.events ++ [TraceEvent.included element.span nested.events] }) := by
    intro state _
    refine ⟨fun holds => ⟨?_, holds.registry⟩, .refl _⟩
    show state.trace.absorb nested.trace element.span = ⟨grouped (settled (state.events ++ _))⟩
    rw [holds.trace, inside.trace, absorb_grouped, settled_append, settled, settled,
      List.append_nil]
    rfl
  refine taken.bind fun _ => (keeps_collect fun _ _ _ => trivial).bind fun _ => ?_
  exact keeps_of_matches fun _ => ⟨rfl, rfl, rfl, rfl, rfl, .refl _⟩

theorem keeps_includeText {file : Root → Evaluate (List ComponentChild)}
    (each : ∀ root, (faithful settings).Kept (file root)) (element : Element) (anchor : Span)
    (seed : Frame) (path text : String) :
    (faithful settings).conduct.Keeps reach
      (includeText settings file element anchor seed path text) := by
  have left : (faithful settings).conduct.Keeps reach leaveFile :=
    keeps_get_bind fun _ _ => keeps_moveTo Invariant.conduct_indifferent _
  unfold includeText
  refine (keeps_reportAll fun _ _ => trivial).bind fun _ state same => ?_
  -- An included file is evaluated from the start, and leaves the trace around it alone.
  have nested : ((runNested settings seed (file (parse settings.literalTags text).root)).run
      state).1.2.IsFaithful settings := each _ _ ⟨rfl, same⟩
  refine Keeps.run_bind (fun state _ => ?_) same ?_
  · exact ⟨fun holds => (faithful settings).frame holds rfl rfl (.refl _), .refl _⟩
  · refine left.bind fun _ => ?_
    exact (keeps_absorbNested element anchor path nested).bind fun _ => keeps_pure _

/-- **A file keeps a trace faithful**, with any number of files below it. -/
theorem evaluateFile_faithful (depth : Nat) (root : Root) :
    (faithful settings).Kept (evaluateFile settings depth root) := by
  -- What a file includes has one level less.
  induction depth generalizing root with
  | zero => exact fun _ holds => holds
  | succ depth ih =>
    refine kept_evaluateFile (fun _ _ => trivial) (fun element _ => isAllowed_anywhere _ element) ?_
    intro element _ _ reach
    refine keeps_evaluateInclude (isAllowed_anywhere _ element) fun pair _ seed path => ?_
    exact keeps_includePath Invariant.conduct_indifferent trivial seed path
      (keeps_includeText ih element _ seed path)

end Evaluate

/-! ### Documents -/

/-- **The trace of a document against the journal of its evaluation**, whatever it includes and
whatever fails. There is one record for each range, text and kind that evaluations are reported
under, in the order of first evaluations, and its values are those of its evaluations, none lost and
none added. They come in the order of the evaluations if all of those stand at the same place of the
same file. If that holds of all records, the trace is the journal grouped as it is. -/
theorem evaluateDocument_trace (settings : Settings) (loader : Loader) (scope : Scope)
    (root : Root) :
    let run := evaluateDocument settings loader scope root
    run.trace.records.map TraceRecord.key = keys (journal run.events) ∧
      (∀ record ∈ run.trace.records, record.Gathers (journal run.events)) ∧
      ((∀ key ∈ keys (journal run.events), StandsAlone (journal run.events) key) →
        run.trace.records = grouped (journal run.events)) := by
  intro run
  have start := isFaithful_start settings scope loader (.refl settings.registry)
  have final := (Evaluate.evaluateFile_faithful (loader.depthLimit + 1) root _ start).trace
  have records : run.trace.records = grouped (settled run.events) := congrArg Trace.records final
  obtain ⟨same, gathers⟩ := grouped_settled run.events
  rw [records]
  refine ⟨same, gathers, fun alone => ?_⟩
  have ordered : ∀ record ∈ grouped (settled run.events),
      record = recordOf (journal run.events) record.key := by
    intro record member
    exact (gathers record member).ordered (alone _ (same ▸ List.mem_map_of_mem member))
  calc grouped (settled run.events)
      = (grouped (settled run.events)).map fun record =>
          recordOf (journal run.events) record.key := by
        exact (List.map_id _).symm.trans (List.map_congr_left ordered)
    _ = ((grouped (settled run.events)).map TraceRecord.key).map
          (recordOf (journal run.events)) := by
        rw [List.map_map]
        rfl
    _ = grouped (journal run.events) := by
        rw [same]
        rfl

/-- Files with one file among them. -/
def Loader.single (path text : String) : Loader :=
  ⟨.ofTable [(path, text.toList.map fun char => UInt8.ofNat char.toNat)], "/docs",
    standardDepthLimit, []⟩

/-- What a source evaluates to that may include one file. -/
def evaluateWith (file source : String) : Evaluation :=
  evaluateDocument .standard (.single "/docs/part.poml" file) (.ofFrame [])
    (parse .standard source).root

/-- A file with one expression, included twice. -/
theorem evaluateDocument_trace_twice :
    let run := evaluateWith "\x7b\x7b i \x7d\x7d"
      "<include for=\"i in ['a','b']\" src=\"part.poml\"/>"
    (∀ key ∈ keys (journal run.events), StandsAlone (journal run.events) key) ∧
      run.trace.records = grouped (journal run.events) := by
  intro run
  have alone : ∀ key ∈ keys (journal run.events), StandsAlone (journal run.events) key := by
    decide +kernel
  obtain ⟨_, _, exactly⟩ := evaluateDocument_trace .standard
    (.single "/docs/part.poml" "\x7b\x7b i \x7d\x7d") (.ofFrame [])
    (parse .standard "<include for=\"i in ['a','b']\" src=\"part.poml\"/>").root
  exact ⟨alone, exactly alone⟩

/-- The texts that a record holds. -/
def TraceRecord.texts (record : TraceRecord) : List (Option String) :=
  record.values.map fun
    | .value (.string text) => some text
    | _ => none

/-- In a loop of an included file, the values of two expressions with the same text are told apart
in the trace of the file only. -/
theorem trace_ne_grouped_twins :
    let run := evaluateWith
      "<p for=\"i in ['a','b']\">\x7b\x7bi\x7d\x7d\x7b\x7bi\x7d\x7d</p>"
      "<include src=\"part.poml\"/>"
    run.trace.records.map TraceRecord.texts = [[none], [some "a", some "b", some "a", some "b"]] ∧
      (grouped (journal run.events)).map TraceRecord.texts =
        [[none], [some "a", some "a", some "b", some "b"]] ∧
      run.trace.records ≠ grouped (journal run.events) := by
  intro run
  have texts : (run.trace.records.map TraceRecord.texts,
      (grouped (journal run.events)).map TraceRecord.texts) =
      ([[none], [some "a", some "b", some "a", some "b"]],
        [[none], [some "a", some "a", some "b", some "b"]]) := by decide +kernel
  obtain ⟨trace, happened⟩ := Prod.mk.inj texts
  refine ⟨trace, happened, fun same => ?_⟩
  rw [same, happened] at trace
  exact absurd trace (by decide)

end PromptMarkup
