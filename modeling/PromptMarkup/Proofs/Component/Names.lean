/-
**The names that a registry lists.**

A registry lists the names of the components that their own name stands for, whatever the other
names stand for. So a registration that takes over some names of a component and leaves it others
sets the two views apart: a name is listed though it stands for a disabled component, or it stands
for an enabled one and is not listed. Where names are taken over together, the views agree.

* `Registry.slot?`, `Registry.Synonyms`: the entry of a name, and names of the same entry, which are
  looked up alike;
* `keysFor_of_lookup`: the rules of a stylesheet for a component under any of its names;
* `synonyms_standard`: all names of a built-in component are synonyms;
* `eraseReps_of_sorted`: what is left of a sorted list without repetitions;
* `names_sorted`, `mem_components_iff`, `mem_names_iff`: the names of a registry;
* `RegistryCall`, `Registry.run`: what changes a registry;
* `Registry.IsStale`, `Registry.IsHidden`: the names that the views disagree on;
* `Registry.IsWhole`, `Registry.Fits`: all names of a component stand for one entry, and the calls
  that keep that so (`isWhole_run`);
* `names_agree_iff`: when listed names are those that can be looked up.
-/

import PromptMarkup.Proofs.Evaluation.Conduct

namespace PromptMarkup

open Markup (normalizeName)

/-! ### Names of one entry -/

namespace Registry

/-- The number of entries in front of the one that a tag stands for. -/
def slot? (registry : Registry) (tag : String) : Option Nat :=
  registry.entries.findIdx? fun entry => entry.answers tag

/-- Two tags stand for the same entry, or neither stands for any. -/
def Synonyms (registry : Registry) (one other : String) : Prop :=
  registry.slot? one = registry.slot? other

variable {registry switched : Registry} {one other : String}

theorem Synonyms.entry? (same : registry.Synonyms one other) :
    registry.entry? one = registry.entry? other := by
  have find : ∀ tag, registry.entry? tag =
      (registry.slot? tag).bind fun slot => registry.entries[slot]? := by
    intro tag
    unfold Registry.entry? slot?
    rw [List.find?_eq_bind_findIdx?_getElem?]
  rw [find, find, same]

/-- **Synonyms are looked up alike.** -/
theorem Synonyms.lookup (same : registry.Synonyms one other) :
    registry.lookup one = registry.lookup other := by
  unfold Registry.lookup
  rw [same.entry?]

/-- Which entry a tag stands for depends on the components alone. -/
theorem Resembles.slot? (same : switched.Resembles registry) (tag : String) :
    switched.slot? tag = registry.slot? tag := by
  have find : ∀ registry : Registry, registry.slot? tag =
      (registry.entries.map RegistryEntry.component).findIdx? fun component =>
        normalizeName tag ∈ component.keys := by
    intro registry
    rw [List.findIdx?_map]
    rfl
  rw [find, find, same]

/-- Synonyms stay synonyms when components are enabled or disabled. -/
theorem Synonyms.resembles (synonyms : registry.Synonyms one other)
    (same : switched.Resembles registry) : switched.Synonyms one other := by
  unfold Synonyms
  rw [same.slot?, same.slot?]
  exact synonyms

/-- A tag is one of the names of the component that it is looked up as. -/
theorem mem_keys_of_lookup {component : Component}
    (found : registry.lookup one = some component) : normalizeName one ∈ component.keys := by
  obtain ⟨entry, enabled, rfl⟩ := Option.map_eq_some_iff.mp found
  obtain ⟨here, _⟩ := Option.filter_eq_some_iff.mp enabled
  unfold Registry.entry? at here
  have answers := List.find?_some here
  exact of_decide_eq_true answers

end Registry

/-- **The rules of a stylesheet** for a component are those for all of its names, whichever of them
is written. -/
theorem keysFor_of_lookup {registry : Registry} {tag : String} {component : Component}
    (found : registry.lookup tag = some component) :
    Stylesheet.keysFor component tag = component.keys :=
  if_pos (Registry.mem_keys_of_lookup found)

/-- **All names of a built-in component are synonyms.** -/
theorem synonyms_standard {component : Component} (builtIn : component ∈ catalogue)
    {one other : String} (first : normalizeName one ∈ component.keys)
    (second : normalizeName other ∈ component.keys) :
    Registry.standard.Synonyms one other := by
  have slots : ∀ component ∈ catalogue, ∀ first ∈ component.keys, ∀ second ∈ component.keys,
      (Registry.standard.entries.findIdx? fun entry => first ∈ entry.component.keys) =
        Registry.standard.entries.findIdx? fun entry => second ∈ entry.component.keys := by
    decide +kernel
  exact slots component builtIn _ first _ second

/-! ### Sorted names -/

theorem loop_eraseReps (first : String) (rest found : List String) :
    List.eraseRepsBy.loop (· == ·) first rest found =
      found.reverse ++ List.eraseRepsBy.loop (· == ·) first rest [] := by
  induction rest generalizing first found with
  | nil => simp [List.eraseRepsBy.loop]
  | cons next rest ih =>
    simp only [List.eraseRepsBy.loop]
    cases first == next with
    | true => exact ih first found
    | false =>
      rw [ih next (first :: found), ih next [first]]
      simp

theorem eraseReps_cons_cons (first next : String) (rest : List String) :
    (first :: next :: rest).eraseReps =
      if first = next then (next :: rest).eraseReps else first :: (next :: rest).eraseReps := by
  simp only [List.eraseReps, List.eraseRepsBy, List.eraseRepsBy.loop]
  by_cases same : first = next
  · simp [same]
  · simp only [beq_false_of_ne same, if_neg same]
    exact loop_eraseReps next rest [first]

theorem mem_eraseReps {name : String} : ∀ {list : List String}, name ∈ list.eraseReps ↔ name ∈ list
  | [] => Iff.rfl
  | [_] => Iff.rfl
  | first :: next :: rest => by
    have ih := @mem_eraseReps name (next :: rest)
    rw [eraseReps_cons_cons]
    split
    next same => simp [same, ih]
    next => simp [ih]

/-- **A sorted list without repetitions is sorted strictly.** -/
theorem eraseReps_of_sorted : ∀ {list : List String}, list.Pairwise (· ≤ ·) →
    list.eraseReps.Pairwise (· < ·)
  | [], _ => List.Pairwise.nil
  | [only], _ => List.pairwise_singleton _ only
  | first :: next :: rest, sorted => by
    obtain ⟨least, later⟩ := List.pairwise_cons.mp sorted
    rw [eraseReps_cons_cons]
    split
    next => exact eraseReps_of_sorted later
    next different =>
      refine List.pairwise_cons.mpr ⟨fun name member => ?_, eraseReps_of_sorted later⟩
      have behind : next ≤ name := by
        rcases List.mem_cons.mp (mem_eraseReps.mp member) with rfl | member
        · exact String.le_refl name
        · exact List.rel_of_pairwise_cons later member
      refine String.not_le.mp fun above => different ?_
      exact String.le_antisymm (least next List.mem_cons_self) (String.le_trans behind above)

/-! ### What is listed -/

namespace Component

/-- The names of a component as they are spelled. -/
def spellings (component : Component) : List String := component.name :: component.aliases

theorem normalizeName_mem_keys {component : Component} {name : String}
    (spelled : name ∈ component.spellings) : normalizeName name ∈ component.keys :=
  List.mem_map_of_mem spelled

end Component

namespace Registry

/-- A name is spelled so by a registered component, enabled or not. -/
def Registers (registry : Registry) (name : String) : Prop :=
  ∃ entry ∈ registry.entries, name ∈ entry.component.spellings

variable {registry : Registry}

/-- **Names are sorted, and none is listed twice.** -/
theorem names_sorted (registry : Registry) : registry.names.Pairwise (· < ·) := by
  let order (first second : String) : Bool := decide (first ≤ second)
  have trans : ∀ first second third, order first second → order second third →
      order first third := by
    intro first second third before behind
    exact decide_eq_true (String.le_trans (of_decide_eq_true before) (of_decide_eq_true behind))
  have total : ∀ first second, (order first second || order second first) = true := by
    simpa [order] using String.le_total
  refine eraseReps_of_sorted ?_
  exact (List.pairwise_mergeSort trans total _).imp of_decide_eq_true

/-- The first entry that has a name is the one that the name stands for. -/
theorem lookup_cons_of_mem {entry : RegistryEntry} {rest : List RegistryEntry} {name : String}
    {component : Component} (answers : normalizeName name ∈ entry.component.keys) :
    Registry.lookup ⟨entry :: rest⟩ name = some component ↔
      entry.enabled = true ∧ component = entry.component := by
  have first : Registry.entry? ⟨entry :: rest⟩ name = some entry :=
    List.find?_cons_of_pos (decide_eq_true answers)
  rw [Registry.lookup, first, Option.map_eq_some_iff, @eq_comm _ component]
  simp [Option.filter_eq_some_iff, and_assoc]

theorem lookup_cons_of_notMem {entry : RegistryEntry} {rest : List RegistryEntry} {name : String}
    (other : normalizeName name ∉ entry.component.keys) :
    Registry.lookup ⟨entry :: rest⟩ name = Registry.lookup ⟨rest⟩ name := by
  unfold Registry.lookup Registry.entry?
  rw [List.find?_cons_of_neg (by simpa [RegistryEntry.answers] using other)]

theorem mem_visible {component : Component} : ∀ {entries : List RegistryEntry}
    {taken : List String}, component ∈ visible taken entries ↔
      normalizeName component.name ∉ taken ∧
        Registry.lookup ⟨entries⟩ component.name = some component
  | [], taken => by simp [visible, Registry.lookup, Registry.entry?]
  | entry :: rest, taken => by
    have ih := @mem_visible component rest (entry.component.keys ++ taken)
    have own : normalizeName entry.component.name ∈ entry.component.keys :=
      Component.normalizeName_mem_keys List.mem_cons_self
    have shown : component ∈ visible taken (entry :: rest) ↔
        ((entry.enabled = true ∧ normalizeName entry.component.name ∉ taken) ∧
          component = entry.component) ∨
        component ∈ visible (entry.component.keys ++ taken) rest := by
      simp only [visible, List.contains_eq_mem, Bool.and_eq_true, Bool.not_eq_true',
        decide_eq_false_iff_not]
      split
      next here => simp [here]
      next here => simp only [here, false_and, false_or]
    rw [shown, ih, List.mem_append, not_or]
    by_cases answers : normalizeName component.name ∈ entry.component.keys
    · rw [lookup_cons_of_mem answers]
      constructor
      · rintro (⟨⟨enabled, free⟩, rfl⟩ | ⟨⟨absent, -⟩, -⟩)
        · exact ⟨free, enabled, rfl⟩
        · exact absurd answers absent
      · rintro ⟨free, enabled, rfl⟩
        exact .inl ⟨⟨enabled, free⟩, rfl⟩
    · have other : component ≠ entry.component := by
        rintro rfl
        exact answers own
      simp [lookup_cons_of_notMem answers, other, answers]

/-- **A component is listed if its own name is looked up as it.** -/
theorem mem_components_iff {component : Component} :
    component ∈ registry.components ↔ registry.lookup component.name = some component := by
  rw [components, List.mem_reverse, mem_visible]
  simp

theorem mem_names_iff {name : String} : name ∈ registry.names ↔
    ∃ component, registry.lookup component.name = some component ∧ name ∈ component.spellings := by
  rw [names, mem_eraseReps, List.mem_mergeSort, List.mem_flatMap]
  simp only [mem_components_iff, Component.spellings]

theorem exists_entry_of_lookup {tag : String} {component : Component}
    (found : registry.lookup tag = some component) :
    ∃ entry ∈ registry.entries, entry.component = component := by
  obtain ⟨entry, kept, same⟩ := Option.map_eq_some_iff.mp found
  obtain ⟨here, -⟩ := Option.filter_eq_some_iff.mp kept
  exact ⟨entry, List.mem_of_find?_eq_some here, same⟩

theorem registers_of_lookup {tag name : String} {component : Component}
    (found : registry.lookup tag = some component) (spelled : name ∈ component.spellings) :
    registry.Registers name := by
  obtain ⟨entry, member, rfl⟩ := exists_entry_of_lookup found
  exact ⟨entry, member, spelled⟩

/-! ### Names that the views disagree on -/

/-- A listed component spells the name so, but it stands for another one, which is disabled. -/
def IsStale (registry : Registry) (name : String) : Prop :=
  ∃ component entry, registry.lookup component.name = some component ∧
    name ∈ component.spellings ∧ registry.entry? name = some entry ∧ entry.enabled = false

/-- The name stands for an enabled component, but no component that spells it so is listed. -/
def IsHidden (registry : Registry) (name : String) : Prop :=
  registry.Registers name ∧ (registry.lookup name).isSome = true ∧
    ∀ component, name ∈ component.spellings → registry.lookup component.name ≠ some component

/-- A registered name is listed exactly when it is looked up as an enabled component. -/
def Agrees (registry : Registry) (name : String) : Prop :=
  name ∈ registry.names ↔ registry.Registers name ∧ (registry.lookup name).isSome = true

theorem Registers.exists_entry? {name : String} (registered : registry.Registers name) :
    ∃ entry, registry.entry? name = some entry := by
  obtain ⟨entry, member, spelled⟩ := registered
  refine Option.isSome_iff_exists.mp (List.find?_isSome.mpr ⟨entry, member, ?_⟩)
  exact decide_eq_true (Component.normalizeName_mem_keys spelled)

theorem agrees_iff {name : String} :
    registry.Agrees name ↔ ¬ registry.IsStale name ∧ ¬ registry.IsHidden name := by
  rw [Agrees, mem_names_iff]
  constructor
  · intro agrees
    refine ⟨?_, ?_⟩
    · rintro ⟨component, entry, found, spelled, stands, disabled⟩
      have none : registry.lookup name = none := by simp [Registry.lookup, stands, disabled]
      simpa [none] using (agrees.mp ⟨component, found, spelled⟩).2
    · rintro ⟨registered, enabled, unlisted⟩
      obtain ⟨component, found, spelled⟩ := agrees.mpr ⟨registered, enabled⟩
      exact unlisted component spelled found
  · rintro ⟨notStale, notHidden⟩
    constructor
    · rintro ⟨component, found, spelled⟩
      have registered := registers_of_lookup found spelled
      obtain ⟨entry, stands⟩ := registered.exists_entry?
      have enabled : entry.enabled = true := by
        by_contra disabled
        exact notStale ⟨component, entry, found, spelled, stands, by simpa using disabled⟩
      exact ⟨registered, by simp [Registry.lookup, stands, enabled]⟩
    · rintro ⟨registered, enabled⟩
      by_contra unlisted
      refine notHidden ⟨registered, enabled, fun component spelled found => ?_⟩
      exact unlisted ⟨component, found, spelled⟩

/-! ### Names that are taken over together -/

/-- All names of a component stand for one entry, and names are spelled in one way. -/
structure IsWhole (registry : Registry) : Prop where
  synonyms : ∀ entry ∈ registry.entries, ∀ one ∈ entry.component.spellings,
    ∀ other ∈ entry.component.spellings, registry.Synonyms one other
  spelled : ∀ one other, registry.Registers one → registry.Registers other →
    normalizeName one = normalizeName other → one = other

/-- **Where names are taken over together, the views agree on all of them.** -/
theorem IsWhole.agrees (whole : registry.IsWhole) (name : String) : registry.Agrees name := by
  rw [Agrees, mem_names_iff]
  constructor
  · rintro ⟨component, found, spelled⟩
    obtain ⟨entry, member, rfl⟩ := exists_entry_of_lookup found
    have same := (whole.synonyms entry member _ List.mem_cons_self name spelled).lookup
    exact ⟨⟨entry, member, spelled⟩, by rw [← same, found]; rfl⟩
  · rintro ⟨registered, enabled⟩
    obtain ⟨component, found⟩ := Option.isSome_iff_exists.mp enabled
    obtain ⟨other, spelled, key⟩ := List.mem_map.mp (mem_keys_of_lookup found)
    obtain rfl := whole.spelled other name (registers_of_lookup found spelled) registered key
    obtain ⟨entry, member, rfl⟩ := exists_entry_of_lookup found
    have same := (whole.synonyms entry member _ List.mem_cons_self other spelled).lookup
    exact ⟨entry.component, same.trans found, spelled⟩

end Registry

/-! ### Calls -/

/-- What changes a registry. -/
inductive RegistryCall where
  | register (component : Component)
  | setEnabled (tag : String) (enabled : Bool)

namespace Registry

variable {registry : Registry}

/-- The registry after a call. A tag that stands for nothing is neither enabled nor disabled. -/
def apply (registry : Registry) : RegistryCall → Registry
  | .register component => registry.register component
  | .setEnabled tag enabled => (registry.setEnabled tag enabled).getD registry

/-- The registry after some calls. -/
def run (registry : Registry) (calls : List RegistryCall) : Registry := calls.foldl apply registry

/-- A component that is registered takes over all names of an earlier one or none, and spells names
as they have been spelled before. -/
def Fits (registry : Registry) : RegistryCall → Prop
  | .register component =>
    (∀ entry ∈ registry.entries,
      (∀ name ∈ entry.component.spellings, normalizeName name ∈ component.keys) ∨
        ∀ name ∈ entry.component.spellings, normalizeName name ∉ component.keys) ∧
    ∀ one ∈ component.spellings, ∀ other, other ∈ component.spellings ∨ registry.Registers other →
      normalizeName one = normalizeName other → one = other
  | .setEnabled _ _ => True

/-- Every call fits the registry that it meets. -/
def AllFit (registry : Registry) : List RegistryCall → Prop
  | [] => True
  | call :: rest => registry.Fits call ∧ (registry.apply call).AllFit rest

theorem Resembles.registers {other : Registry} (same : other.Resembles registry) {name : String} :
    other.Registers name ↔ registry.Registers name := by
  have components : ∀ registry : Registry, registry.Registers name ↔
      ∃ component ∈ registry.entries.map RegistryEntry.component, name ∈ component.spellings := by
    simp [Registers]
  rw [components, components, same]

theorem IsWhole.resembles {other : Registry} (whole : registry.IsWhole)
    (same : other.Resembles registry) : other.IsWhole := by
  refine ⟨fun entry member one first two second => ?_, fun one two first second => ?_⟩
  · have kept : entry.component ∈ registry.entries.map RegistryEntry.component :=
      same ▸ List.mem_map_of_mem member
    obtain ⟨earlier, member, component⟩ := List.mem_map.mp kept
    rw [← component] at first second
    exact (whole.synonyms earlier member one first two second).resembles same
  · exact whole.spelled one two (same.registers.mp first) (same.registers.mp second)

theorem slot?_register (component : Component) (tag : String) :
    (registry.register component).slot? tag =
      if normalizeName tag ∈ component.keys then some 0
      else (registry.slot? tag).map (· + 1) := by
  rw [slot?, register, List.findIdx?_cons]
  simp [RegistryEntry.answers, slot?]

/-- A registration that takes over names together. -/
theorem IsWhole.register {component : Component} (whole : registry.IsWhole)
    (fits : registry.Fits (.register component)) : (registry.register component).IsWhole := by
  obtain ⟨together, spelled⟩ := fits
  have registers : ∀ {name}, (registry.register component).Registers name →
      name ∈ component.spellings ∨ registry.Registers name := by
    simp [Registers, Registry.register]
  refine ⟨fun entry member one first two second => ?_, fun one two first second key => ?_⟩
  · unfold Synonyms
    rw [slot?_register, slot?_register]
    rcases List.mem_cons.mp member with rfl | member
    · rw [if_pos (Component.normalizeName_mem_keys first),
        if_pos (Component.normalizeName_mem_keys second)]
    · rcases together entry member with taken | free
      · rw [if_pos (taken one first), if_pos (taken two second)]
      · rw [if_neg (free one first), if_neg (free two second),
          whole.synonyms entry member one first two second]
  · rcases registers first with own | earlier
    · exact spelled one own two (registers second) key
    · rcases registers second with own | other
      · exact (spelled two own one (.inr earlier) key.symm).symm
      · exact whole.spelled one two earlier other key

theorem IsWhole.apply {call : RegistryCall} (whole : registry.IsWhole)
    (fits : registry.Fits call) : (registry.apply call).IsWhole := by
  cases call with
  | register component => exact whole.register fits
  | setEnabled tag enabled =>
    rw [Registry.apply]
    cases switched : registry.setEnabled tag enabled with
    | none => exact whole
    | some other => exact whole.resembles (resembles_setEnabled switched)

theorem IsWhole.run {calls : List RegistryCall} (whole : registry.IsWhole)
    (fit : registry.AllFit calls) : (registry.run calls).IsWhole := by
  induction calls generalizing registry with
  | nil => exact whole
  | cons call rest ih => exact ih (whole.apply fit.1) fit.2

theorem isWhole_empty : empty.IsWhole where
  synonyms := nofun
  spelled := nofun

theorem mem_catalogue_of_standard {entry : RegistryEntry} (member : entry ∈ standard.entries) :
    entry.component ∈ catalogue := by
  have components : standard.entries.map RegistryEntry.component = catalogue.reverse := by
    decide +kernel
  exact List.mem_reverse.mp (components ▸ List.mem_map_of_mem member)

theorem isWhole_standard : standard.IsWhole where
  synonyms entry member one first two second :=
    synonyms_standard (mem_catalogue_of_standard member) (Component.normalizeName_mem_keys first)
      (Component.normalizeName_mem_keys second)
  spelled := by
    have apart : ∀ component ∈ catalogue, ∀ one ∈ component.spellings, ∀ other ∈ catalogue,
        ∀ two ∈ other.spellings, normalizeName one = normalizeName two → one = two := by
      decide +kernel
    rintro one two ⟨first, member, own⟩ ⟨second, another, spelled⟩
    exact apart _ (mem_catalogue_of_standard member) one own _ (mem_catalogue_of_standard another)
      two spelled

/-- The registry that calls start from. -/
def start (builtIn : Bool) : Registry := if builtIn then standard else empty

/-- **When listed names are those that can be looked up.** Whatever calls have been made, names are
sorted and none is listed twice. The registry lists the registered names that are looked up as
enabled components unless there are stale or hidden ones, and there are none as long as the names of
a component are taken over together. -/
theorem names_agree_iff (builtIn : Bool) (calls : List RegistryCall) :
    ((start builtIn).run calls).names.Pairwise (· < ·) ∧
    (∀ name, ((start builtIn).run calls).Agrees name ↔
      ¬ ((start builtIn).run calls).IsStale name ∧
        ¬ ((start builtIn).run calls).IsHidden name) ∧
    ((start builtIn).AllFit calls → ∀ name, ((start builtIn).run calls).Agrees name) := by
  have whole : (start builtIn).IsWhole := by
    cases builtIn with
    | true => exact isWhole_standard
    | false => exact isWhole_empty
  exact ⟨names_sorted _, fun name => agrees_iff, fun fit => (whole.run fit).agrees⟩

/-- A disabled component that is registered again with all of its names and one more. -/
theorem names_agree_iff_registeredAgain :
    ∃ calls : List RegistryCall, calls =
        [.register ⟨"a", ["x"], .paragraph, [], none, ""⟩, .setEnabled "x" false,
          .register ⟨"a", ["x", "y"], .list, [], none, ""⟩] ∧
      (start false).AllFit calls ∧ ∀ name, ((start false).run calls).Agrees name := by
  have spelled : ∀ one ∈ ["a", "x", "y"], ∀ other ∈ ["a", "x", "y"],
      normalizeName one = normalizeName other → one = other := by decide
  have taken : ∀ name ∈ ["a", "x"], normalizeName name ∈ ["a", "x", "y"] := by decide
  have fit : (start false).AllFit
      [.register ⟨"a", ["x"], .paragraph, [], none, ""⟩, .setEnabled "x" false,
        .register ⟨"a", ["x", "y"], .list, [], none, ""⟩] := by
    refine ⟨⟨nofun, ?_⟩, trivial, ⟨?_, ?_⟩, trivial⟩
    · intro one first other second same
      have listed := second.resolve_right nofun
      exact spelled one (List.mem_append_left ["y"] first) other
        (List.mem_append_left ["y"] listed) same
    · exact List.forall_mem_singleton.mpr (.inl taken)
    · rintro one first other (second | ⟨entry, member, second⟩) same
      · exact spelled one first other second same
      · obtain rfl := List.mem_singleton.mp member
        exact spelled one first other (List.mem_append_left ["y"] second) same
  exact ⟨_, rfl, fit, (names_agree_iff false _).2.2 fit⟩

/-- A component that is registered again without its alias hides the alias. -/
theorem not_agrees_droppedAlias :
    ∃ registry : Registry, registry = (start false).run [
        .register ⟨"a", ["x"], .paragraph, [], none, ""⟩,
        .register ⟨"a", [], .list, [], none, ""⟩] ∧
      registry.names = ["a"] ∧ registry.Registers "x" ∧ (registry.lookup "x").isSome = true ∧
      ¬ registry.Agrees "x" := by
  obtain ⟨registry, reached⟩ : ∃ registry : Registry, registry = (start false).run [
    .register ⟨"a", ["x"], .paragraph, [], none, ""⟩,
    .register ⟨"a", [], .list, [], none, ""⟩] := ⟨_, rfl⟩
  have listed : registry.names = ["a"] := by
    subst reached
    show (List.mergeSort ["a"] _).eraseReps = ["a"]
    rw [List.mergeSort_singleton]
    rfl
  have registered : registry.Registers "x" := by
    subst reached
    exact ⟨_, List.mem_cons_of_mem _ List.mem_cons_self, by decide⟩
  have enabled : (registry.lookup "x").isSome = true := by
    subst reached
    decide
  refine ⟨registry, reached, listed, registered, enabled, fun agrees => ?_⟩
  have absent : "x" ∈ registry.names := agrees.mpr ⟨registered, enabled⟩
  rw [listed] at absent
  exact absurd absent (by decide)

end Registry

end PromptMarkup
