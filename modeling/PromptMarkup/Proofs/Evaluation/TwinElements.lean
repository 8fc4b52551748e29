/-
**Elements of twin runs.**

An element stands for the same under every name of its component: it is looked up as the same
component, takes the same props, and is repeated and left out alike. A name that stands for no
component is reported where it is first evaluated.

* `Quiet.growing`, `growing_expandOnce`: an element takes no report back, whatever it stands for;
* `tracks_resolveElement`: the component of an element under both of its names;
* `tracks_expandOnce`, `tracks_expandElement`: what an element stands for, if that holds of what it
  contains and of the file that it includes.
-/

import PromptMarkup.Proofs.Evaluation.TwinSteps

namespace PromptMarkup

open Markup

namespace Evaluate

variable {settings : Settings} {relabel : Relabel} {α : Type}

/-! ### Reports -/

theorem grows_of_leads {before after : EvaluationState}
    (leads : before.Leads (fun _ => True) after) : before.Grows after := by
  induction leads with
  | noted notes =>
    obtain ⟨more, diagnostics, _⟩ := notes.diagnostics
    exact .reported more diagnostics notes.alike.registry
  | @declared before span declaration _ =>
    have declared : Tracks .none Eq _ _ := tracks_declare span span declaration
    exact declared.grows before fun some => absurd rfl some
  | trans _ _ first second => exact first.trans second

/-- **Notes and declarations take no report back.** -/
theorem Quiet.growing {step : Evaluate α} (quiet : Quiet (fun _ => True) step) :
    Growing relabel step :=
  fun state _ => grows_of_leads (quiet.leads state)

theorem growing_pure (value : α) : Growing relabel (pure value) := (quiet_pure value).growing

theorem growing_lending {step : Evaluate α} (inside : Growing relabel step) :
    Growing relabel (lending step) :=
  fun state admits => (inside state admits).trans (.of_eq rfl rfl)

theorem growing_inFrame (frame : Frame) {step : Evaluate α} (inside : Growing relabel step) :
    Growing relabel (inFrame frame step) :=
  growing_lending fun state admits =>
    have grows := inside { state with scope := state.scope.push frame } admits
    ⟨grows.diagnostics, grows.registry⟩

section Growth

variable {element : Element} {file : Root → Evaluate (List ComponentChild)}
  {body : Evaluate (List ComponentChild)}

theorem growing_boundValue (within : Growing relabel body) (typeName : Option String) :
    Growing relabel (boundValue settings element body typeName) := by
  unfold boundValue
  split
  · exact (quiet_attributeValue _ _).growing
  · exact (quiet_fileValue _ _ _).growing
  · exact within.bind fun children => (quiet_readReported _ _ _).growing

theorem growing_evaluateBinding (within : Growing relabel body) :
    Growing relabel (evaluateBinding settings element body) := by
  refine (quiet_attributeText _ _).growing.bind fun name => ?_
  refine (quiet_attributeText _ _).growing.bind fun typeName => ?_
  refine (growing_boundValue within typeName).bind fun value => ?_
  split
  · exact growing_pure ()
  · exact (tracks_bindName _ _).grows
  · exact (tracks_bindNames _).grows
  · exact (quiet_reportError _ _).growing

theorem growing_buildNode (component : Component) (within : Growing relabel body) :
    Growing relabel (buildNode settings component element body) := by
  refine (quiet_elementProps _ _).growing.bind fun props => within.bind fun children => ?_
  simp only
  split
  · exact (quiet_embedMedia _ _).growing.bind fun props => growing_pure _
  · exact (growing_pure props).bind fun props => growing_pure _

/-- **An element takes no report back**, whatever component it stands for. -/
theorem growing_expandOnce (component : Component)
    (includes : Growing relabel (evaluateInclude settings file element))
    (within : Growing relabel body) :
    Growing relabel (expandOnce settings file component element body) := by
  refine (quiet_conditionHolds _).growing.bind fun holds => ?_
  split
  · split
    · exact (growing_evaluateBinding within).bind fun _ => growing_pure []
    · exact growing_lending includes
    · exact (quiet_evaluateSchema (fun _ => trivial) _ _).growing.bind fun _ => growing_pure []
    · exact (quiet_evaluateSchema (fun _ => trivial) _ _).growing.bind fun _ => growing_pure []
    · exact (quiet_evaluateRuntime (fun _ => trivial) _).growing.bind fun _ => growing_pure []
    · exact growing_pure []
    · exact growing_buildNode component within
  · exact growing_pure []

theorem growing_forEach (iterator : String) (length : Nat) {once : Evaluate (List ComponentChild)}
    (within : Growing relabel once) (index : Nat) (items : List Value) :
    Growing relabel (forEach iterator length once index items) := by
  induction items generalizing index with
  | nil => exact growing_pure []
  | cons item rest ih =>
    rw [forEach]
    refine (growing_lending ((tracks_identified item).grows.bind fun item => ?_)).bind
      fun first => ?_
    · exact growing_inFrame _ within
    · exact (ih (index + 1)).bind fun others => growing_pure _

end Growth

/-! ### Components -/

section Elements

variable {one other : Element} (same : one.Renames relabel other)
include same

/-- **Both names of an element stand for the same component**, and it has the same rules under
both. -/
theorem tracks_resolveElement :
    Tracks relabel (fun first second => second = first ∧
        Stylesheet.keysFor first other.name = Stylesheet.keysFor first one.name)
      (resolveElement one) (resolveElement other) := by
  refine ⟨(quiet_resolveElement one).growing, fun {first second} twins admits => ?_⟩
  have found : first.registry.lookup other.name = first.registry.lookup one.name :=
    admits.lookup same.opening.name
  simp only [resolveElement, StateT.run_bind, StateT.run_get, pure_bind]
  rw [← twins.alike.registry, found]
  cases resolved : first.registry.lookup one.name with
  | some component =>
    have keys : Stylesheet.keysFor component other.name =
        Stylesheet.keysFor component one.name := by
      rw [keysFor_of_lookup resolved, keysFor_of_lookup (found.trans resolved)]
    exact .inr ⟨⟨rfl, keys⟩, twins⟩
  | none =>
    have renamed := same.opening.name
    unfold Relabel.Opens at renamed
    split at renamed
    next member =>
      refine .inl ⟨_, member, List.mem_append_right _ ?_⟩
      rw [← renamed.1]
      exact List.mem_singleton_self _
    next => exact .inr ⟨⟨rfl, congrArg _ renamed⟩, twins.noted⟩

theorem tracks_conditionHolds :
    Tracks relabel Eq (conditionHolds settings one) (conditionHolds settings other) := by
  have found := attribute?_resembles same.opening.attributes "if"
  unfold conditionHolds
  generalize one.attribute? "if" = first at found
  generalize other.attribute? "if" = second at found
  cases found with
  | none => exact tracks_pure rfl
  | some same =>
    refine (tracks_attributeValue true same).andThen fun value => ?_
    split
    · exact tracks_pure rfl
    · exact tracks_pure rfl
    · exact (tracks_reportError _ _ _ _).andThen fun _ => tracks_pure rfl

/-! ### Elements -/

variable {file : Root → Evaluate (List ComponentChild)}
  {body inside : Evaluate (List ComponentChild)}
  (within : Tracks relabel (ChildrenRename relabel) body inside)
include within

theorem tracks_buildNode {component : Component}
    (keys : Stylesheet.keysFor component other.name = Stylesheet.keysFor component one.name) :
    Tracks relabel (ChildrenRename relabel) (buildNode settings component one body)
      (buildNode settings component other inside) := by
  have tag := same.opening.name.tag
  refine (tracks_elementProps same.opening.attributes keys).andThen fun props => ?_
  refine within.bind (childrenRename_refl relabel) fun children others alike => ?_
  simp only
  split
  · exact (tracks_embedMedia _).andThen fun props =>
      tracks_pure (.cons (.node (.intro _ _ _ _ tag alike)) .nil)
  · exact (tracks_pure rfl).andThen fun props =>
      tracks_pure (.cons (.node (.intro _ _ _ _ tag alike)) .nil)

variable (includes : Tracks relabel (ChildrenRename relabel) (evaluateInclude settings file one)
  (evaluateInclude settings file other))
include includes

/-- **An element once.** -/
theorem tracks_expandOnce {component : Component}
    (keys : Stylesheet.keysFor component other.name = Stylesheet.keysFor component one.name) :
    Tracks relabel (ChildrenRename relabel) (expandOnce settings file component one body)
      (expandOnce settings file component other inside) := by
  refine (tracks_conditionHolds same).andThen fun holds => ?_
  split
  · split
    · exact (tracks_evaluateBinding same within).andThen fun _ => tracks_pure .nil
    · exact tracks_lending (childrenRename_refl relabel) includes
    · exact (tracks_evaluateSchema same _).andThen fun _ => tracks_pure .nil
    · exact (tracks_evaluateSchema same _).andThen fun _ => tracks_pure .nil
    · exact (tracks_evaluateRuntime same.opening.attributes).andThen fun _ => tracks_pure .nil
    · exact tracks_pure .nil
    · exact tracks_buildNode same within keys
  · exact tracks_pure .nil

omit same within includes in
theorem tracks_forEach (iterator : String) (length : Nat)
    {once again : Evaluate (List ComponentChild)}
    (within : Tracks relabel (ChildrenRename relabel) once again) (index : Nat)
    (items : List Value) :
    Tracks relabel (ChildrenRename relabel) (forEach iterator length once index items)
      (forEach iterator length again index items) := by
  induction items generalizing index with
  | nil => exact tracks_pure .nil
  | cons item rest ih =>
    have reflexive := childrenRename_refl relabel
    have here := (tracks_identified item).andThen fun item =>
      tracks_inFrame reflexive (loopFrame iterator item index length) within
    rw [forEach, forEach]
    refine (tracks_lending reflexive here).bind reflexive fun first again alike => ?_
    exact (ih (index + 1)).bind reflexive fun others more later =>
      tracks_pure (List.rel_append alike later)

omit same within includes in
theorem tracks_loopItems {one other : ForIterator} (iterator : other.collection = one.collection) :
    Tracks relabel Eq (loopItems settings one) (loopItems settings other) := by
  unfold loopItems
  rw [iterator]
  refine (tracks_evaluateReported _ _ _ _).andThen fun value => ?_
  split
  · exact tracks_pure rfl
  · exact tracks_pure rfl
  · exact (tracks_reportError _ _ _ _).andThen fun _ => tracks_pure rfl

/-- **An element**, as often as its loop says. -/
theorem tracks_expandElement :
    Tracks relabel (ChildrenRename relabel) (expandElement settings file one body)
      (expandElement settings file other inside) := by
  have found := attribute?_resembles same.opening.attributes "for"
  have growing : ∀ component, Growing relabel (expandOnce settings file component one body) :=
    fun component => growing_expandOnce component includes.grows within.grows
  refine (tracks_resolveElement same).bindGrowing (fun component => ?_) fun component _ alike => ?_
  · simp only
    split
    · exact growing component
    · split
      · exact (quiet_loopItems _).growing.bind fun items =>
          growing_forEach _ _ (growing component) 0 items
      · exact growing_pure []
      · exact (quiet_reportError _ _).growing.bind fun _ => growing_pure []
  · obtain ⟨rfl, keys⟩ := alike
    have once := tracks_expandOnce same within includes keys
    simp only
    generalize one.attribute? "for" = first at found
    generalize other.attribute? "for" = second at found
    cases found with
    | none => exact once
    | some pairs =>
      have form := pairs.value
      simp only
      generalize Attribute.value _ = value at form
      generalize Attribute.value _ = again at form
      cases form with
      | none => exact (tracks_reportError _ _ _ _).andThen fun _ => tracks_pure .nil
      | some form =>
        cases form with
        | quoted => exact tracks_pure .nil
        | quotedTemplate => exact (tracks_reportError _ _ _ _).andThen fun _ => tracks_pure .nil
        | template => exact (tracks_reportError _ _ _ _).andThen fun _ => tracks_pure .nil
        | forIterator iterator collection =>
          simp only [iterator]
          refine (tracks_loopItems collection).andThen fun items => ?_
          exact tracks_forEach _ _ once 0 items

end Elements

end Evaluate

end PromptMarkup
