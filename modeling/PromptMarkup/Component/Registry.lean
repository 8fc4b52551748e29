/-
**The registry of components.**

Tags are looked up under all names of a component, and a component that is registered later takes
over the names it shares with earlier ones.

* `Registry.register`, `Registry.setEnabled`: change what tags mean;
* `Registry.lookup`: the component of a tag, if it is enabled;
* `Registry.components`, `Registry.names`: what can be looked up.
-/

import PromptMarkup.Component.Catalogue

namespace PromptMarkup

open Markup (normalizeName)

/-- A registered component. -/
structure RegistryEntry where
  component : Component
  enabled : Bool
  deriving DecidableEq, Repr

/-- A tag names the component of an entry. -/
def RegistryEntry.answers (entry : RegistryEntry) (tag : String) : Bool :=
  normalizeName tag ∈ entry.component.keys

/-- The components that tags stand for, the one registered last first. -/
structure Registry where
  entries : List RegistryEntry
  deriving DecidableEq, Repr

namespace Registry

/-- No component at all. -/
def empty : Registry := ⟨[]⟩

/-- A registry with one more component. -/
def register (registry : Registry) (component : Component) : Registry :=
  ⟨⟨component, true⟩ :: registry.entries⟩

/-- The built-in components. -/
def standard : Registry := catalogue.foldl register empty

/-- The entry that a tag stands for. -/
def entry? (registry : Registry) (tag : String) : Option RegistryEntry :=
  registry.entries.find? fun entry => entry.answers tag

/-- The component that a tag stands for, if it is enabled. -/
def lookup (registry : Registry) (tag : String) : Option Component :=
  ((registry.entry? tag).filter RegistryEntry.enabled).map RegistryEntry.component

/-- The entries with the first one that a tag stands for enabled or disabled. -/
def setFirst (tag : String) (enabled : Bool) : List RegistryEntry → List RegistryEntry
  | [] => []
  | entry :: rest =>
    if entry.answers tag then { entry with enabled := enabled } :: rest
    else entry :: setFirst tag enabled rest

/-- A registry with the component of a tag enabled or disabled; none when there is none. -/
def setEnabled (registry : Registry) (tag : String) (enabled : Bool) : Option Registry :=
  if (registry.entry? tag).isSome then some ⟨setFirst tag enabled registry.entries⟩ else none

/-- The enabled components among some entries whose own name is not taken over, neither in front of
them nor by one of the names `taken` already. -/
def visible (taken : List String) : List RegistryEntry → List Component
  | [] => []
  | entry :: rest =>
    let others := visible (entry.component.keys ++ taken) rest
    if entry.enabled && !taken.contains (normalizeName entry.component.name) then
      entry.component :: others
    else others

/-- The enabled components that their own name stands for, in the order they were registered in. -/
def components (registry : Registry) : List Component := (visible [] registry.entries).reverse

/-- All names of the components that can be looked up, sorted and without repetitions. -/
def names (registry : Registry) : List String :=
  let all := registry.components.flatMap fun component => component.name :: component.aliases
  (all.mergeSort fun first second => decide (first ≤ second)).eraseReps

end Registry

end PromptMarkup
