/-
**Documents under other names.**

A document in which an element is written under another name of its component evaluates to the same
tree, and declares the same. The files that it includes are the same in both runs, so that nothing
is renamed in them.

* `tracks_walkContents`: contents one after the other;
* `tracks_evaluateInclude`: an element that includes a file, if files are evaluated alike;
* `tracks_evaluateFile`: files, by induction on how deep they include others;
* `evaluateDocument_renames`: whole documents.
-/

import PromptMarkup.Proofs.Evaluation.TwinElements

namespace PromptMarkup

open Markup

namespace Evaluate

variable {settings : Settings} {relabel : Relabel} {file : Root → Evaluate (List ComponentChild)}

/-! ### Contents -/

section Contents

/-- What an element includes is the same under all of its names. -/
def TracksIncludes (settings : Settings) (relabel : Relabel)
    (file : Root → Evaluate (List ComponentChild)) : Prop :=
  ∀ {one other : Element}, one.Renames relabel other →
    Tracks relabel (ChildrenRename relabel) (evaluateInclude settings file one)
      (evaluateInclude settings file other)

mutual

/-- **Contents one after the other.** -/
theorem tracks_walkContents (includes : TracksIncludes settings relabel file)
    (ones : List Content) {others : List Content}
    (same : List.Forall₂ (Content.Renames relabel) ones others) :
    Tracks relabel (ChildrenRename relabel)
      (walkContents settings (expandElement settings file) ones)
      (walkContents settings (expandElement settings file) others) :=
  match ones with
  | [] => by
    cases same
    exact tracks_pure .nil
  | content :: rest => by
    cases same with
    | cons first later =>
      have reflexive := childrenRename_refl relabel
      rw [walkContents, walkContents]
      refine (tracks_walkContent includes content first).bind reflexive fun here again alike => ?_
      exact (tracks_walkContents includes rest later).bind reflexive fun behind more equal =>
        tracks_pure (List.rel_append alike equal)

theorem tracks_walkContent (includes : TracksIncludes settings relabel file) (one : Content)
    {other : Content} (same : one.Renames relabel other) :
    Tracks relabel (ChildrenRename relabel)
      (walkContent settings (expandElement settings file) one)
      (walkContent settings (expandElement settings file) other) :=
  match one with
  | .element ⟨_, body, _, _⟩ => by
    cases same with
    | @element _ other tag inside =>
      obtain ⟨_, _, _, _⟩ := other
      rw [walkContent, walkContent]
      exact tracks_expandElement ⟨tag, inside⟩ (tracks_walkBody includes body inside)
        (includes ⟨tag, inside⟩)
  | .text ⟨_, _⟩ => by
    cases same with
    | @text _ other same =>
      obtain ⟨_, _⟩ := other
      obtain rfl := same
      exact tracks_pure (childrenRename_text relabel _ _ _ _)
  | .template _ => by
    cases same with
    | template same =>
      rw [walkContent, walkContent]
      exact tracks_evaluateTemplate same
  | .comment _ => by
    cases same
    exact tracks_pure .nil
  | .pragma _ => by
    cases same with
    | pragma directive options =>
      rw [walkContent, walkContent]
      exact (tracks_applyPragma directive options).andThen fun _ => tracks_pure .nil

theorem tracks_walkBody (includes : TracksIncludes settings relabel file) (one : Body)
    {other : Body} (same : one.Renames relabel other) :
    Tracks relabel (ChildrenRename relabel)
      (walkBody settings (expandElement settings file) one)
      (walkBody settings (expandElement settings file) other) :=
  match one with
  | .selfClosing => by
    cases same
    exact tracks_pure .nil
  | .literal ⟨_, _⟩ => by
    cases same with
    | @literal _ other same =>
      obtain ⟨_, _⟩ := other
      obtain rfl := same
      exact tracks_pure (childrenRename_text relabel _ _ _ _)
  | .children contents => by
    cases same with
    | children inside =>
      rw [walkBody, walkBody]
      exact tracks_inFrame (childrenRename_refl relabel) []
        (tracks_walkContents includes contents inside)

end

end Contents

/-! ### Files -/

section Files

-- A file that is included is the same in both runs.
variable (inside : ∀ root, Tracks .none (ChildrenRename .none) (file root) (file root))

theorem twins_nestedStart (seed : Frame) {first second : EvaluationState}
    (twins : first.Twins second) :
    (nestedStart settings seed first).Twins (nestedStart settings seed second) :=
  ⟨⟨rfl, twins.alike.loader, twins.alike.registry, rfl, twins.alike.nextBuilder⟩, rfl, rfl⟩

include inside in
/-- **A file evaluated as a document of its own.** -/
theorem tracks_runNested (seed : Frame) (root : Root) :
    Tracks relabel (fun first second : List ComponentChild × EvaluationState =>
        ChildrenRename .none first.1 second.1 ∧ first.2.Twins second.2)
      (runNested settings seed (file root)) (runNested settings seed (file root)) := by
  refine tracks_of (fun _ => .of_eq rfl rfl) fun {first second} twins => ?_
  have starts : (nestedStart settings seed first).Twins (nestedStart settings seed second) :=
    twins_nestedStart seed twins
  rcases (inside root).pairs starts fun some => absurd rfl some with ⟨_, member, _⟩ | ⟨same, kept⟩
  · exact absurd member List.not_mem_nil
  · exact ⟨⟨same, kept⟩, ⟨twins.alike.scope, kept.alike.loader, twins.alike.registry,
      twins.alike.stylesheet, kept.alike.nextBuilder⟩, twins.schema, twins.singleSpeaker⟩

theorem tracks_moveTo (loader : Loader) : Tracks relabel Eq (moveTo loader) (moveTo loader) :=
  tracks_modify (fun _ => .of_eq rfl rfl) fun twins =>
    ⟨⟨twins.alike.scope, rfl, twins.alike.registry, twins.alike.stylesheet,
      twins.alike.nextBuilder⟩, twins.schema, twins.singleSpeaker⟩

theorem tracks_leaveFile : Tracks relabel Eq leaveFile leaveFile := by
  refine tracks_get_bind fun {first second} twins => ?_
  rw [twins.alike.loader]
  exact tracks_moveTo _

theorem tracks_absorbNested (one other : Element) (anchor place : Span) (path : String)
    {first second : EvaluationState} (twins : first.Twins second) :
    Tracks relabel Eq (absorbNested one anchor path first)
      (absorbNested other place path second) := by
  refine (tracks_reportAll _ _).andThen fun _ => ?_
  refine .andThen (tracks_modify ?_ ?_) fun _ => ?_
  · exact fun _ => .of_eq rfl rfl
  · exact fun twins => twins.noted
  refine (tracks_collect fun collector => ?_).andThen fun _ => tracks_modify ?_ ?_
  · rw [twins.schema]
    exact collector_absorb_span collector second.schema one.span other.span
  · exact fun _ => .of_eq rfl rfl
  · intro outer state same
    refine ⟨⟨same.alike.scope, same.alike.loader, same.alike.registry, same.alike.stylesheet,
      same.alike.nextBuilder⟩, same.schema, ?_⟩
    rw [same.singleSpeaker, twins.singleSpeaker]

variable {one other : Element} (same : one.Renames relabel other)

include inside in
/-- **The text of a file** that has been entered. -/
theorem tracks_includeText (anchor place : Span) (seed : Frame) (path text : String) :
    Tracks relabel (ChildrenRename relabel) (includeText settings file one anchor seed path text)
      (includeText settings file other place seed path text) := by
  refine (tracks_reportAll _ _).andThen fun _ => ?_
  refine (tracks_runNested inside seed _).bind (fun value => ⟨childrenRename_refl .none _, .refl _⟩)
    fun value again alike => ?_
  refine tracks_leaveFile.andThen fun _ => ?_
  refine (tracks_absorbNested one other anchor place path alike.2).andThen fun _ => tracks_pure ?_
  exact reanchorChildren_renames _ _ _ (withoutDocument_renames (childrenRename_anyName _ alike.1))

include inside in
/-- **The file at a path.** -/
theorem tracks_includePath (anchor place : Span) (seed : Frame) (path : String) :
    Tracks relabel (ChildrenRename relabel) (includePath settings file one anchor seed path)
      (includePath settings file other place seed path) := by
  refine tracks_get_bind fun {first second} twins => ?_
  rw [twins.alike.loader]
  split
  · exact (tracks_reportError _ _ _ _).andThen fun _ => tracks_pure .nil
  · refine (tracks_moveTo _).andThen fun _ => (tracks_readFile _ _ _).andThen fun text => ?_
    cases text with
    | none => exact tracks_leaveFile.andThen fun _ => tracks_pure .nil
    | some text => exact tracks_includeText inside _ _ _ _ _

include same in
theorem tracks_includeSeed :
    Tracks relabel Eq (includeSeed settings one) (includeSeed settings other) := by
  have found := attribute?_resembles same.opening.attributes "context"
  refine tracks_get_bind fun {first second} twins => ?_
  rw [twins.alike.scope]
  simp only
  generalize one.attribute? "context" = first at found
  generalize other.attribute? "context" = second at found
  cases found with
  | none => exact tracks_pure rfl
  | some same =>
    refine (tracks_attributeValue false same).andThen fun value => ?_
    cases value with
    | none => exact tracks_pure rfl
    | some value =>
      refine (tracks_identified value).andThen fun value => ?_
      split
      · exact tracks_pure rfl
      · exact (tracks_reportError _ _ _ _).andThen fun _ => tracks_pure rfl

include inside same in
/-- **An element that includes a file.** -/
theorem tracks_evaluateInclude :
    Tracks relabel (ChildrenRename relabel) (evaluateInclude settings file one)
      (evaluateInclude settings file other) := by
  have found := attribute?_resembles same.opening.attributes "src"
  unfold evaluateInclude
  generalize one.attribute? "src" = first at found
  generalize other.attribute? "src" = second at found
  cases found with
  | none => exact (tracks_reportError _ _ _ _).andThen fun _ => tracks_pure .nil
  | some pairs =>
    refine (tracks_attributeText same.opening.attributes "src").andThen fun source => ?_
    cases source with
    | none => exact tracks_pure .nil
    | some source =>
      refine (tracks_includeSeed same).andThen fun seed => ?_
      cases seed with
      | none => exact tracks_pure .nil
      | some seed =>
        refine tracks_get_bind fun {first second} twins => ?_
        rw [twins.alike.loader]
        exact tracks_includePath inside _ _ _ _

include inside in
/-- **A document**, if the files that it includes are evaluated alike. -/
theorem tracks_evaluateRoot {one other : Root}
    (same : List.Forall₂ (Content.Renames relabel) one.children other.children) :
    Tracks relabel (ChildrenRename relabel) (evaluateRoot settings file one)
      (evaluateRoot settings file other) := by
  have each : ∀ {first second : EvaluationState}, first.Twins second →
      relabel.Admits first.registry → Tracks relabel (ChildrenRename relabel)
        (addStylesheets first.registry one.children >>= fun _ =>
          inFrame [] (walkContents settings (expandElement settings file) one.children))
        (addStylesheets second.registry other.children >>= fun _ =>
          inFrame [] (walkContents settings (expandElement settings file) other.children)) := by
    intro first second twins admits
    rw [← twins.alike.registry]
    refine (tracks_addStylesheets admits _ same).andThen fun _ => ?_
    exact tracks_inFrame (childrenRename_refl relabel) []
      (tracks_walkContents (tracks_evaluateInclude inside) _ same)
  exact ⟨fun state admits => (each (.refl state) admits).grows state admits,
    fun twins admits => (each twins admits).pairs twins admits⟩

end Files

/-- **Files.** Nothing is renamed in a file that is included, so that the induction is over all
names at once. -/
theorem tracks_evaluateFile (depth : Nat) (relabel : Relabel) {one other : Root}
    (same : List.Forall₂ (Content.Renames relabel) one.children other.children) :
    Tracks relabel (ChildrenRename relabel) (evaluateFile settings depth one)
      (evaluateFile settings depth other) := by
  induction depth generalizing relabel one other with
  | zero => exact tracks_pure .nil
  | succ depth ih => exact tracks_evaluateRoot (fun root => ih .none (renames_refl _)) same

end Evaluate

/-! ### Documents -/

/-- **A document under another name** of a component evaluates to the same tree, declares the same
and is one message if it was, unless that name is reported to stand for no component. -/
theorem evaluateDocument_renames (settings : Settings) (loader : Loader) (scope : Scope)
    {relabel : Relabel} {one other : Root}
    (same : List.Forall₂ (Content.Renames relabel) one.children other.children)
    (admits : relabel.Admits settings.registry)
    (known : ¬ relabel.IsUnknown (evaluateDocument settings loader scope one).diagnostics) :
    (evaluateDocument settings loader scope one).tree.Renames relabel
        (evaluateDocument settings loader scope other).tree ∧
      (evaluateDocument settings loader scope other).schema =
        (evaluateDocument settings loader scope one).schema ∧
      (evaluateDocument settings loader scope other).singleSpeaker =
        (evaluateDocument settings loader scope one).singleSpeaker := by
  have runs : Evaluate.Tracks relabel (ChildrenRename relabel)
      (Evaluate.evaluateFile settings _ one) (Evaluate.evaluateFile settings _ other) :=
    Evaluate.tracks_evaluateFile (loader.depthLimit + 1) relabel same
  obtain ⟨children, twins⟩ := (runs.pairs (.refl (.start settings scope loader settings.registry))
    admits).resolve_left known
  refine ⟨documentNode_renames children _ _, ?_, twins.singleSpeaker.symm⟩
  exact (congrArg Schema.Collector.outcome twins.schema).symm

end PromptMarkup
