/-
**Scopes as maps.**

A scope is a chain of frames, but all that can be told of it is one map from names to values. The
frame that an included document starts with is the same map, and a frame that is left again has
changed nothing.

* `ScopeChange`, `Scope.changeAll`: what may happen to a scope;
* `Scope.IsBalanced`: changes that leave every frame they enter, and no other;
* `Scope.lookup_flatten`, `Scope.mem_names`: a flat scope and the names of a scope;
* `Scope.pop_changeAll`: a frame that is left again;
* `Scope.IsTransparent`: what a scope says as a map;
* `Scope.isTransparent_changeAll`: every scope that can come about is such a map.
-/

import PromptMarkup.Proofs.Value.Fields
import PromptMarkup.Scope

namespace PromptMarkup

/-! ### Changes -/

/-- A frame as the objects of documents have it: no name is bound twice. -/
structure Bindings where
  frame : Frame
  apart : (Fields.names frame).Nodup

/-- A change of a scope. -/
inductive ScopeChange where
  | push (bindings : Bindings)
  | pop
  | set (name : String) (value : Value)

/-- A scope with a change. -/
def ScopeChange.apply : ScopeChange → Scope → Scope
  | push bindings, scope => scope.push bindings.frame
  | pop, scope => scope.pop
  | set name value, scope => scope.set name value

namespace Scope

/-- A scope with some changes one after the other. -/
def changeAll (changes : List ScopeChange) (scope : Scope) : Scope :=
  changes.foldl (fun scope change => change.apply scope) scope

theorem changeAll_cons (change : ScopeChange) (rest : List ScopeChange) (scope : Scope) :
    changeAll (change :: rest) scope = changeAll rest (change.apply scope) := rfl

theorem changeAll_append (first second : List ScopeChange) (scope : Scope) :
    changeAll (first ++ second) scope = changeAll second (changeAll first scope) :=
  List.foldl_append

/-- Changes that leave every frame that they enter, and no other one. -/
inductive IsBalanced : List ScopeChange → Prop
  | nil : IsBalanced []
  | set (name : String) (value : Value) {rest : List ScopeChange} :
    IsBalanced rest → IsBalanced (.set name value :: rest)
  | frame (bindings : Bindings) {inside rest : List ScopeChange} :
    IsBalanced inside → IsBalanced rest →
      IsBalanced (.push bindings :: inside ++ .pop :: rest)

/-! ### Names that are bound once -/

/-- No frame of a scope binds a name twice. -/
def IsApart (scope : Scope) : Prop := ∀ frame ∈ scope.frames, (Fields.names frame).Nodup

theorem isApart_ofFrame (context : Bindings) : IsApart (ofFrame context.frame) :=
  List.forall_mem_singleton.mpr context.apart

/-- One change keeps the names of each frame apart. -/
theorem isApart_apply {scope : Scope} (apart : scope.IsApart) (change : ScopeChange) :
    (change.apply scope).IsApart := by
  obtain ⟨root, inner⟩ := scope
  obtain ⟨innerApart, rootApart⟩ := List.forall_mem_append.mp apart
  cases change with
  | push bindings => exact List.forall_mem_cons.mpr ⟨bindings.apart, apart⟩
  | pop =>
    exact List.forall_mem_append.mpr
      ⟨fun frame member => innerApart frame (List.mem_of_mem_tail member), rootApart⟩
  | set name value =>
    cases inner with
    | nil =>
      have here := List.forall_mem_singleton.mp rootApart
      exact List.forall_mem_singleton.mpr (Fields.nodup_insert here name value)
    | cons frame rest =>
      obtain ⟨here, others⟩ := List.forall_mem_cons.mp innerApart
      exact List.forall_mem_append.mpr
        ⟨List.forall_mem_cons.mpr ⟨Fields.nodup_insert here name value, others⟩, rootApart⟩

/-- So do all changes. -/
theorem isApart_changeAll {scope : Scope} (apart : scope.IsApart) (changes : List ScopeChange) :
    (changeAll changes scope).IsApart := by
  induction changes generalizing scope with
  | nil => exact apart
  | cons change rest ih => exact ih (isApart_apply apart change)

/-! ### Flat scopes and names -/

/-- **A flat scope binds what the scope does.** Frames are written from the outermost one to the
innermost, and read the other way round. -/
theorem lookup_flatten {scope : Scope} (apart : scope.IsApart) (name : String) :
    scope.flatten.lookup name = scope.get? name := by
  unfold flatten get?
  unfold IsApart at apart
  generalize scope.frames = frames at apart ⊢
  induction frames with
  | nil => rfl
  | cons frame outer ih =>
    obtain ⟨here, others⟩ := List.forall_mem_cons.mp apart
    rw [List.foldr_cons, Fields.lookup_insertAll, Fields.lookup_reverse here, ih others,
      List.findSome?_cons]
    cases frame.lookup name <;> rfl

theorem get?_ofFrame (frame : Frame) (name : String) :
    (ofFrame frame).get? name = frame.lookup name := by
  show [frame].findSome? _ = _
  rw [List.findSome?_singleton]

/-- **The names of a scope are those that are bound.** -/
theorem mem_names (scope : Scope) (name : String) :
    name ∈ scope.names ↔ (scope.get? name).isSome := by
  unfold names get?
  rw [List.mem_eraseDups, List.mem_flatMap, List.findSome?_isSome_iff]
  refine exists_congr fun frame => and_congr_right fun _ => ?_
  rw [Option.isSome_iff_ne_none, ne_eq, Fields.lookup_eq_none, not_not]

theorem nodup_names (scope : Scope) : scope.names.Nodup := nodup_eraseDups _

/-! ### Frames that are left again -/

/-- Balanced changes inside of a frame touch nothing but that frame. -/
theorem exists_changeAll {changes : List ScopeChange} (balanced : IsBalanced changes)
    (root frame : Frame) (outer : List Frame) :
    ∃ changed, changeAll changes ⟨root, frame :: outer⟩ = ⟨root, changed :: outer⟩ := by
  induction balanced generalizing frame outer with
  | nil => exact ⟨frame, rfl⟩
  | set name value _ ih => exact ih (Fields.insert name value frame) outer
  | frame bindings _ _ ihInside ihRest =>
    obtain ⟨inside, left⟩ := ihInside bindings.frame (frame :: outer)
    obtain ⟨changed, done⟩ := ihRest frame outer
    refine ⟨changed, ?_⟩
    rw [List.cons_append, changeAll_cons, changeAll_append]
    show changeAll (.pop :: _) (changeAll _ ⟨root, bindings.frame :: frame :: outer⟩) = _
    rw [left]
    exact done

/-- **A frame that is left again has changed nothing.** -/
theorem pop_changeAll {changes : List ScopeChange} (balanced : IsBalanced changes)
    (frame : Frame) (scope : Scope) : (changeAll changes (scope.push frame)).pop = scope := by
  obtain ⟨changed, done⟩ := exists_changeAll balanced scope.root frame scope.inner
  show (changeAll changes ⟨scope.root, frame :: scope.inner⟩).pop = scope
  rw [done]
  rfl

/-! ### The map of a scope -/

/-- All that can be told of a scope is one map from names to values. -/
structure IsTransparent (scope : Scope) : Prop where
  /-- The scope that an included document starts with. -/
  get?_flatten : ∀ name, (ofFrame scope.flatten).get? name = scope.get? name
  mem_names : ∀ name, name ∈ scope.names ↔ (scope.get? name).isSome
  nodup_names : scope.names.Nodup
  get?_pop : ∀ (bindings : Bindings) (inside : List ScopeChange), IsBalanced inside → ∀ name,
    (changeAll inside (scope.push bindings.frame)).pop.get? name = scope.get? name

/-- **Scopes are maps**, whatever context they start with and whatever happens to them. -/
theorem isTransparent_changeAll (context : Bindings) (changes : List ScopeChange) :
    (changeAll changes (ofFrame context.frame)).IsTransparent where
  get?_flatten name := by
    rw [get?_ofFrame, lookup_flatten (isApart_changeAll (isApart_ofFrame context) changes)]
  mem_names := mem_names _
  nodup_names := nodup_names _
  get?_pop bindings inside balanced name := by rw [pop_changeAll balanced]

end Scope

end PromptMarkup
