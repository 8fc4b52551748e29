/-
**Scopes.**

A scope is a chain of frames around a root frame, which holds the context of a document. A name
means what the innermost frame that binds it says.

* `Scope.push`, `Scope.pop`: enter and leave a frame; the root frame is never left;
* `Scope.set`, `Scope.get?`: bind a name in the innermost frame and look one up;
* `Scope.flatten`, `Scope.names`: all bindings that can be seen, and their names.
-/

import PromptMarkup.Value.Basic

namespace PromptMarkup

/-- The bindings of one frame, in the order they were made in. -/
abbrev Frame := List (String × Value)

/-- A root frame and the frames inside it, the innermost one first. -/
structure Scope where
  root : Frame
  inner : List Frame

namespace Scope

/-- The scope of a context. -/
def ofFrame (context : Frame) : Scope := ⟨context, []⟩

/-- The scope of a context in JSON; there are no bindings when it is not an object. -/
def ofJson (context : Json) : Scope :=
  match Value.ofJson context with
  | .object fields => ofFrame fields
  | _ => ofFrame []

/-- The frames of a scope, the innermost one first. -/
def frames (scope : Scope) : List Frame := scope.inner ++ [scope.root]

/-- The number of frames. -/
def depth (scope : Scope) : Nat := scope.frames.length

/-- A scope with a new innermost frame. -/
def push (bindings : Frame) (scope : Scope) : Scope :=
  { scope with inner := bindings :: scope.inner }

/-- A scope without its innermost frame, unless that is the root. -/
def pop (scope : Scope) : Scope := { scope with inner := scope.inner.tail }

/-- A scope with a name bound in its innermost frame. -/
def set (name : String) (value : Value) (scope : Scope) : Scope :=
  match scope.inner with
  | [] => { scope with root := Fields.insert name value scope.root }
  | frame :: rest => { scope with inner := Fields.insert name value frame :: rest }

/-- The value of a name in the innermost frame that binds it. -/
def get? (name : String) (scope : Scope) : Option Value :=
  scope.frames.findSome? fun frame => frame.lookup name

/-- All bindings in one frame; inner bindings replace outer ones. -/
def flatten (scope : Scope) : Frame :=
  scope.frames.foldr (fun frame outer => Fields.insertAll outer frame) []

/-- Every name that is bound, those of inner frames first. -/
def names (scope : Scope) : List String :=
  (scope.frames.flatMap Fields.names).eraseDups

end Scope

end PromptMarkup
