/-
**Journals and traces.**

The journal of a run lists its evaluations in the order they happen in, those of included files in
between. A trace groups them: every evaluation belongs to the record of its text, its kind and the
range it is reported at, which is that of the outermost include around it.

The trace of an included file is grouped when it is taken over, and taken over record by record. So
what is grouped in the end is not the journal but a list that is sorted anew at every include.

* `Evaluated`, `journal`: evaluations, and all of them that a history holds;
* `grouped`: the records that a list of evaluations makes up;
* `settled`: the evaluations of a history in the order that they come into its trace in;
* `addTo_grouped`, `absorb_grouped`: a trace that goes on stays grouped.
-/

import Mathlib.Data.List.Nodup
import Mathlib.Data.List.Perm.Basic
import PromptMarkup.Evaluation.Trace
import PromptMarkup.Proofs.Value.Fields

namespace PromptMarkup

/-! ### Evaluations -/

/-- What a record is of. -/
structure TraceKey where
  span : Span
  expression : String
  kind : TraceKind
  deriving DecidableEq, Repr

/-- An evaluation in a run. -/
structure Evaluated where
  /-- The ranges of the includes around it, the outermost first. -/
  includes : List Span
  /-- The range of the expression in its own file. -/
  span : Span
  expression : String
  kind : TraceKind
  value : TraceValue

namespace Evaluated

/-- The record that an evaluation belongs to. -/
def key (entry : Evaluated) : TraceKey :=
  ⟨entry.includes.headD entry.span, entry.expression, entry.kind⟩

/-- Where an evaluation stands: the includes around it, and its own expression. -/
def site (entry : Evaluated) : List Span × TraceKey :=
  (entry.includes, ⟨entry.span, entry.expression, entry.kind⟩)

/-- An evaluation seen from outside of an include. -/
def below (span : Span) (entry : Evaluated) : Evaluated :=
  { entry with includes := span :: entry.includes }

end Evaluated

mutual

/-- The evaluations of an event, in the order they happen in. -/
def TraceEvent.journal : TraceEvent → List Evaluated
  | .evaluated span expression kind value => [⟨[], span, expression, kind, value⟩]
  | .included span events => (PromptMarkup.journal events).map (Evaluated.below span)

/-- The evaluations of some events, in the order they happen in. -/
def journal : List TraceEvent → List Evaluated
  | [] => []
  | event :: rest => event.journal ++ journal rest

end

/-! ### Groups -/

/-- The evaluations that belong to a record. -/
def entriesOf (entries : List Evaluated) (key : TraceKey) : List Evaluated :=
  entries.filter fun entry => entry.key = key

/-- The keys of some evaluations in the order of their first ones. -/
def keys (entries : List Evaluated) : List TraceKey := (entries.map Evaluated.key).eraseDups

/-- The record that some evaluations make up for a key. -/
def recordOf (entries : List Evaluated) (key : TraceKey) : TraceRecord :=
  ⟨key.span, key.expression, key.kind, (entriesOf entries key).map Evaluated.value⟩

/-- The records that some evaluations make up: one for each key, in the order of first evaluations,
with the values in the order of the evaluations. -/
def grouped (entries : List Evaluated) : List TraceRecord := (keys entries).map (recordOf entries)

/-- The same evaluations record by record. -/
def sorted (entries : List Evaluated) : List Evaluated := (keys entries).flatMap (entriesOf entries)

mutual

/-- The evaluations of an event in the order that they come into the trace in. -/
def TraceEvent.settled : TraceEvent → List Evaluated
  | .evaluated span expression kind value => [⟨[], span, expression, kind, value⟩]
  | .included span events => (sorted (PromptMarkup.settled events)).map (Evaluated.below span)

/-- The evaluations of some events in the order that they come into the trace in. -/
def settled : List TraceEvent → List Evaluated
  | [] => []
  | event :: rest => event.settled ++ settled rest

end

theorem settled_append (first second : List TraceEvent) :
    settled (first ++ second) = settled first ++ settled second := by
  induction first with
  | nil => rfl
  | cons event rest ih => rw [List.cons_append, settled, ih, settled, List.append_assoc]

/-! ### Keys -/

theorem mem_keys {entries : List Evaluated} {key : TraceKey} :
    key ∈ keys entries ↔ ∃ entry ∈ entries, entry.key = key := by
  rw [keys, List.mem_eraseDups, List.mem_map]

theorem nodup_keys (entries : List Evaluated) : (keys entries).Nodup := nodup_eraseDups _

theorem keys_append (first second : List Evaluated) :
    keys (first ++ second) =
      keys first ++ ((second.map Evaluated.key).removeAll (first.map Evaluated.key)).eraseDups := by
  rw [keys, List.map_append, List.eraseDups_append]
  rfl

/-- One more evaluation has a key of its own unless there is one already. -/
theorem keys_concat (entries : List Evaluated) (entry : Evaluated) :
    keys (entries ++ [entry]) =
      if entry.key ∈ keys entries then keys entries else keys entries ++ [entry.key] := by
  rw [keys_append, List.map_singleton, List.removeAll, List.filter_singleton]
  by_cases known : entry.key ∈ keys entries
  · have member : (entries.map Evaluated.key).elem entry.key = true :=
      List.elem_eq_true_of_mem (List.mem_eraseDups.mp known)
    rw [if_pos known, member]
    exact List.append_nil _
  · have absent : (entries.map Evaluated.key).elem entry.key = false :=
      Bool.eq_false_iff.mpr fun member =>
        known (List.mem_eraseDups.mpr (List.mem_of_elem_eq_true member))
    rw [if_neg known, absent]
    rfl

/-! ### A trace that goes on -/

/-- The key of a record. -/
def TraceRecord.key (record : TraceRecord) : TraceKey :=
  ⟨record.span, record.expression, record.kind⟩

theorem TraceRecord.isOf_iff (record : TraceRecord) (key : TraceKey) :
    record.isOf key.span key.expression key.kind = true ↔ record.key = key := by
  obtain ⟨span, expression, kind⟩ := key
  simp only [TraceRecord.isOf, TraceRecord.key, TraceKey.mk.injEq, Bool.and_eq_true,
    decide_eq_true_eq]
  tauto

/-- One more evaluation goes to the record of its key, or begins one behind the others. -/
theorem addTo_records {all : List TraceKey} (nodup : all.Nodup) (key : TraceKey)
    (value : TraceValue) (values : TraceKey → List TraceValue) :
    Trace.addTo key.span key.expression key.kind value
        (all.map fun other => ⟨other.span, other.expression, other.kind, values other⟩) =
      (all.map fun other => ⟨other.span, other.expression, other.kind,
        if other = key then values other ++ [value] else values other⟩) ++
        if key ∈ all then [] else [⟨key.span, key.expression, key.kind, [value]⟩] := by
  induction all with
  | nil => rfl
  | cons first rest ih =>
    obtain ⟨fresh, others⟩ := List.nodup_cons.mp nodup
    rw [List.map_cons, Trace.addTo]
    by_cases same : first = key
    · subst same
      have here := (TraceRecord.isOf_iff
        ⟨first.span, first.expression, first.kind, values first⟩ first).mpr rfl
      rw [if_pos here, if_pos List.mem_cons_self, List.append_nil, List.map_cons, if_pos rfl]
      congr 1
      refine List.map_congr_left fun other member => ?_
      rw [if_neg fun again : other = first => fresh (again ▸ member)]
    · have away : ¬ TraceRecord.isOf ⟨first.span, first.expression, first.kind, values first⟩
          key.span key.expression key.kind = true :=
        fun here => same ((TraceRecord.isOf_iff _ key).mp here)
      rw [if_neg away, ih others, List.map_cons, if_neg same, List.cons_append]
      simp [Ne.symm same]

theorem entriesOf_concat (entries : List Evaluated) (entry : Evaluated) (key : TraceKey) :
    entriesOf (entries ++ [entry]) key =
      if key = entry.key then entriesOf entries key ++ [entry] else entriesOf entries key := by
  rw [entriesOf, List.filter_append]
  by_cases same : key = entry.key
  · rw [if_pos same, List.filter_singleton]
    simp [same, entriesOf]
  · rw [if_neg same, List.filter_singleton]
    simp [Ne.symm same, entriesOf]

theorem entriesOf_eq_nil {entries : List Evaluated} {key : TraceKey} (absent : key ∉ keys entries) :
    entriesOf entries key = [] := by
  refine List.filter_eq_nil_iff.mpr fun entry member same => absent ?_
  exact mem_keys.mpr ⟨entry, member, of_decide_eq_true same⟩

/-- **One more evaluation keeps the records grouped.** -/
theorem addTo_grouped (entries : List Evaluated) (entry : Evaluated) :
    Trace.addTo entry.key.span entry.key.expression entry.key.kind entry.value (grouped entries) =
      grouped (entries ++ [entry]) := by
  have step := addTo_records (nodup_keys entries) entry.key entry.value
    fun key => (entriesOf entries key).map Evaluated.value
  have values : ∀ key, (if key = entry.key
      then (entriesOf entries key).map Evaluated.value ++ [entry.value]
      else (entriesOf entries key).map Evaluated.value) =
      (entriesOf (entries ++ [entry]) key).map Evaluated.value := by
    intro key
    rw [entriesOf_concat]
    split
    · rw [List.map_append]
      rfl
    · rfl
  simp only [values] at step
  refine step.trans ?_
  rw [grouped, keys_concat]
  by_cases known : entry.key ∈ keys entries
  · rw [if_pos known, if_pos known, List.append_nil]
    rfl
  · rw [if_neg known, if_neg known, List.map_append]
    congr 1
    rw [List.map_singleton, recordOf, entriesOf_concat, if_pos rfl, entriesOf_eq_nil known]
    rfl

/-- A trace with some evaluations on top, one by one. -/
def Trace.recordAll (trace : Trace) (entries : List Evaluated) : Trace :=
  entries.foldl (fun trace entry =>
    trace.record entry.key.span entry.key.expression entry.key.kind entry.value) trace

theorem recordAll_grouped (entries more : List Evaluated) :
    ((⟨grouped entries⟩ : Trace).recordAll more) = ⟨grouped (entries ++ more)⟩ := by
  induction more generalizing entries with
  | nil => rw [List.append_nil]; rfl
  | cons entry rest ih =>
    have step : (⟨grouped entries⟩ : Trace).record entry.key.span entry.key.expression
        entry.key.kind entry.value = ⟨grouped (entries ++ [entry])⟩ :=
      congrArg Trace.mk (addTo_grouped entries entry)
    rw [Trace.recordAll, List.foldl_cons, step]
    have later := ih (entries ++ [entry])
    rwa [List.append_assoc] at later

/-- Taking over grouped evaluations is the same as recording them record by record. -/
theorem absorb_eq (trace : Trace) (entries : List Evaluated) (span : Span) :
    trace.absorb ⟨grouped entries⟩ span =
      trace.recordAll ((sorted entries).map (Evaluated.below span)) := by
  have each : ∀ (all : List TraceKey) (trace : Trace),
      (all.map (recordOf entries)).foldl (fun trace record => record.values.foldl
        (fun trace value => trace.record span record.expression record.kind value) trace) trace =
      trace.recordAll ((all.flatMap (entriesOf entries)).map (Evaluated.below span)) := by
    intro all
    induction all with
    | nil => exact fun trace => rfl
    | cons key rest ih =>
      intro trace
      have group : (recordOf entries key).values.foldl (fun trace value =>
          trace.record span key.expression key.kind value) trace =
          trace.recordAll ((entriesOf entries key).map (Evaluated.below span)) := by
        rw [Trace.recordAll, recordOf, List.foldl_map, List.foldl_map]
        refine List.foldl_ext _ _ _ fun trace entry member => ?_
        obtain ⟨_, same⟩ := List.mem_filter.mp member
        obtain rfl := of_decide_eq_true same
        rfl
      rw [List.map_cons, List.foldl_cons, ih, List.flatMap_cons, List.map_append, Trace.recordAll,
        Trace.recordAll, List.foldl_append]
      congr 1
  exact each (keys entries) trace

/-- **Taking over an included file keeps the records grouped.** -/
theorem absorb_grouped (entries nested : List Evaluated) (span : Span) :
    (⟨grouped entries⟩ : Trace).absorb ⟨grouped nested⟩ span =
      ⟨grouped (entries ++ (sorted nested).map (Evaluated.below span))⟩ := by
  rw [absorb_eq, recordAll_grouped]

end PromptMarkup
