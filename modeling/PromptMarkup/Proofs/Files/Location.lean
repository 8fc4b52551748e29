/-
**Where a path leads.**

A path leads some steps up from where it starts and from there down to a name; above the root there
is nothing to go up to. The normal form of a path spells that out with one exception. A step up that
nothing is left to undo is kept as a name, and the next one undoes it. So of the steps that lead
above the start every pair is lost, and one that is left over is kept at the root as well.

* `splitOn_intercalate`: names with slashes between them are cut into these names;
* `spell`, `steps_spell`: the path of some steps, and its steps;
* `Location`, `location`: where a path leads, on its text alone;
* `ascent`: the steps up that lead above the start of a path;
* `normalize_eq_spell`: the normal form by way of the place that a path leads to;
* `normalize_locates`: what normal forms look like and which paths they tell apart.
-/

import Mathlib.Data.List.Basic
import PromptMarkup.Files.Path

namespace PromptMarkup

namespace Text

/-! ### Pieces -/

variable {sep : Char}

theorem splitOn_cons (char : Char) (rest : List Char) :
    splitOn [sep] (char :: rest) =
      if char = sep then [] :: splitOn [sep] rest else pushFront char (splitOn [sep] rest) := by
  unfold splitOn
  rw [splitFrom, if_neg (Nat.lt_irrefl 0)]
  by_cases same : char = sep
  · simp [same, List.isPrefixOf]
  · simp [same, List.isPrefixOf, Ne.symm same]

/-- No piece has a separator in it. -/
theorem not_mem_splitOn {piece : List Char} (chars : List Char)
    (member : piece ∈ splitOn [sep] chars) : sep ∉ piece := by
  induction chars generalizing piece with
  | nil =>
    obtain rfl := List.mem_singleton.mp member
    exact List.not_mem_nil
  | cons char rest ih =>
    rw [splitOn_cons] at member
    split at member
    next =>
      rcases List.mem_cons.mp member with rfl | later
      · exact List.not_mem_nil
      · exact ih later
    next other =>
      cases pieces : splitOn [sep] rest with
      | nil =>
        rw [pieces] at member
        obtain rfl := List.mem_singleton.mp member
        simpa using Ne.symm other
      | cons first others =>
        rw [pieces] at member ih
        rcases List.mem_cons.mp member with rfl | later
        · rw [List.mem_cons, not_or]
          exact ⟨Ne.symm other, ih List.mem_cons_self⟩
        · exact ih (List.mem_cons_of_mem first later)

theorem splitOn_append {piece : List Char} (free : sep ∉ piece) (rest : List Char) :
    splitOn [sep] (piece ++ sep :: rest) = piece :: splitOn [sep] rest := by
  induction piece with
  | nil => rw [List.nil_append, splitOn_cons, if_pos rfl]
  | cons char piece ih =>
    rw [List.mem_cons, not_or] at free
    obtain ⟨other, later⟩ := free
    rw [List.cons_append, splitOn_cons, if_neg (Ne.symm other), ih later]
    rfl

theorem splitOn_of_free {piece : List Char} (free : sep ∉ piece) :
    splitOn [sep] piece = [piece] := by
  induction piece with
  | nil => rfl
  | cons char piece ih =>
    rw [List.mem_cons, not_or] at free
    obtain ⟨other, later⟩ := free
    rw [splitOn_cons, if_neg (Ne.symm other), ih later]
    rfl

/-- **Pieces with separators between them are cut into these pieces**, unless there are none. -/
theorem splitOn_intercalate {pieces : List (List Char)} (nonempty : pieces ≠ [])
    (free : ∀ piece ∈ pieces, sep ∉ piece) :
    splitOn [sep] ([sep].intercalate pieces) = pieces := by
  induction pieces with
  | nil => exact absurd rfl nonempty
  | cons first rest ih =>
    obtain ⟨here, later⟩ := List.forall_mem_cons.mp free
    cases rest with
    | nil => simpa [List.intercalate] using splitOn_of_free here
    | cons second others =>
      rw [List.intercalate_cons_cons, List.append_assoc, List.singleton_append,
        splitOn_append here, ih (List.cons_ne_nil _ _) later]

end Text

namespace Path

/-! ### Names -/

/-- A step of a path that leads to a file or a directory of that name. -/
structure IsName (step : String) : Prop where
  nonempty : step ≠ ""
  noDot : step ≠ "."
  noDots : step ≠ ".."
  free : '/' ∉ step.toList

theorem not_mem_segments (path : String) : ∀ step ∈ segments path, '/' ∉ step.toList := by
  intro step member
  obtain ⟨chars, inside, rfl⟩ := List.mem_map.mp member
  rw [String.toList_ofList]
  exact Text.not_mem_splitOn path.toList inside

/-! ### Spelled paths -/

/-- The path of some steps. -/
def spell (absolute : Bool) (items : List String) : String :=
  (if absolute then "/" else "") ++ "/".intercalate items

/-- The steps that a path is spelled with have texts without slashes. -/
def AreSpelled (items : List String) : Prop := ∀ item ∈ items, item ≠ "" ∧ '/' ∉ item.toList

section Spelled

variable {items : List String} (spelled : AreSpelled items)
include spelled

theorem head?_intercalate : ("/".intercalate items).toList.head? ≠ some '/' := by
  rw [String.toList_intercalate]
  cases items with
  | nil => exact Option.some_ne_none '/' ∘ Eq.symm
  | cons first rest =>
    obtain ⟨nonempty, free⟩ := spelled first List.mem_cons_self
    have begins : first.toList <+: "/".toList.intercalate ((first :: rest).map String.toList) := by
      cases rest with
      | nil => simp [List.intercalate]
      | cons second others =>
        rw [List.map_cons, List.map_cons, List.intercalate_cons_cons, List.append_assoc]
        exact List.prefix_append _ _
    obtain ⟨behind, whole⟩ := begins
    rw [← whole, List.head?_append_of_ne_nil _ fun none => nonempty (String.toList_inj.mp none)]
    exact fun slash => free (List.mem_of_head? slash)

theorem isAbsolute_spell (absolute : Bool) : isAbsolute (spell absolute items) = absolute := by
  unfold isAbsolute spell
  rw [String.toList_append]
  cases absolute with
  | true => rfl
  | false => exact decide_eq_false (head?_intercalate spelled)

/-- Between the slashes of a path are the steps that it is spelled with, and nothing at all in front
of the root and where there are no steps. -/
theorem segments_spell (absolute : Bool) :
    segments (spell absolute items) =
      (if absolute then [""] else []) ++ (if items = [] then [""] else items) := by
  have inside : segments ("/".intercalate items) = if items = [] then [""] else items := by
    unfold segments
    rw [String.toList_intercalate]
    split
    next none =>
      subst none
      rfl
    next nonempty =>
      have free : ∀ piece ∈ items.map String.toList, '/' ∉ piece := by
        intro piece member
        obtain ⟨item, listed, rfl⟩ := List.mem_map.mp member
        exact (spelled item listed).2
      have cut := Text.splitOn_intercalate (mt List.map_eq_nil_iff.mp nonempty) free
      show (Text.splitOn ['/'] (['/'].intercalate _)).map String.ofList = items
      rw [cut, List.map_map]
      simp [Function.comp_def]
  rw [← inside]
  unfold spell segments
  cases absolute with
  | true =>
    rw [String.toList_append]
    show (Text.splitOn ['/'] ('/' :: _)).map String.ofList = _
    rw [Text.splitOn_cons, if_pos rfl]
    rfl
  | false => rw [String.toList_append]; rfl

end Spelled

/-- **The steps of a spelled path are those that it is spelled with.** -/
theorem steps_spell {items : List String} (spelled : AreSpelled items) (noDot : "." ∉ items)
    (absolute : Bool) : steps (spell absolute items) = items := by
  have kept : items.filter (fun step => step ≠ "" ∧ step ≠ ".") = items := by
    rw [List.filter_eq_self]
    intro item member
    have other : item ≠ "." := fun same => noDot (same ▸ member)
    simp [(spelled item member).1, other]
  unfold steps
  rw [segments_spell spelled]
  cases absolute with
  | true =>
    by_cases none : items = []
    · subst none
      rfl
    · simpa [none] using kept
  | false =>
    cases items with
    | nil => rfl
    | cons first rest =>
      have here : first ≠ "" := (spelled first List.mem_cons_self).1
      have other : first ≠ "." := fun same => noDot (same ▸ List.mem_cons_self)
      simpa [here, other] using kept

/-! ### Places -/

/-- Where a path leads: so many steps up from where it starts, or none from the root, and from there
down through names, the last of which comes first. -/
structure Location where
  absolute : Bool
  up : Nat
  down : List String
  deriving DecidableEq, Repr

namespace Location

/-- One more step from a place. A step up undoes the step down in front of it; the place above the
root is the root. -/
def step (place : Location) (step : String) : Location :=
  if step = "" ∨ step = "." then place
  else if step = ".." then
    match place.down with
    | _ :: rest => { place with down := rest }
    | [] => if place.absolute then place else { place with up := place.up + 1 }
  else { place with down := step :: place.down }

/-- The path that leads straight to a place. -/
def path (place : Location) : String :=
  spell place.absolute (List.replicate place.up ".." ++ place.down.reverse)

end Location

/-- Where a path leads, on its text alone. -/
def location (path : String) : Location :=
  (segments path).foldl Location.step ⟨isAbsolute path, 0, []⟩

/-- Where a path leads if there are places above its start even when that is the root. -/
def trail (path : String) : Location := (segments path).foldl Location.step ⟨false, 0, []⟩

/-- The steps up of a path that lead above its start. -/
def ascent (path : String) : Nat := (trail path).up

/-! ### Steps -/

section Steps

variable {place : Location} {step : String}

theorem Location.step_name (name : IsName step) :
    place.step step = { place with down := step :: place.down } := by
  unfold Location.step
  rw [if_neg (not_or.mpr ⟨name.nonempty, name.noDot⟩), if_neg name.noDots]

theorem Location.absolute_step : (place.step step).absolute = place.absolute := by
  unfold Location.step
  split
  · rfl
  split
  · split
    · rfl
    · split <;> rfl
  · rfl

/-- The way down is a way down through names. -/
theorem Location.isName_step (free : '/' ∉ step.toList) (names : ∀ name ∈ place.down, IsName name) :
    ∀ name ∈ (place.step step).down, IsName name := by
  unfold Location.step
  split
  next => exact names
  next leads =>
    obtain ⟨nonempty, noDot⟩ := not_or.mp leads
    split
    next =>
      split
      next name rest same =>
        rw [same] at names
        exact (List.forall_mem_cons.mp names).2
      next => split <;> exact names
    next noDots => exact List.forall_mem_cons.mpr ⟨⟨nonempty, noDot, noDots, free⟩, names⟩

/-- The steps down do not depend on how far up they begin. -/
theorem Location.step_root (up : Nat) (down : List String) :
    Location.step ⟨true, 0, down⟩ step = ⟨true, 0, (Location.step ⟨false, up, down⟩ step).down⟩ := by
  unfold Location.step
  split
  · rfl
  split
  · cases down <;> rfl
  · rfl

/-- What the walk to a normal form has kept at a place: the names on the way down, and a step up
below them when the number of steps up is odd. -/
def Location.kept (place : Location) : List String :=
  place.down ++ List.replicate (place.up % 2) ".."

/-- **A step of the walk to a normal form** keeps what there is to keep of a step. -/
theorem walk_kept (relative : place.absolute = false) :
    walk place.kept step = (place.step step).kept := by
  unfold walk Location.step Location.kept
  split
  · rfl
  split
  · obtain ⟨absolute, up, down⟩ := place
    obtain rfl : absolute = false := relative
    cases down with
    | cons name rest => rfl
    | nil =>
      -- A step up is undone by the next one.
      rcases Nat.mod_two_eq_zero_or_one up with even | odd
      · simp [even, Nat.add_mod]
      · simp [odd, Nat.add_mod]
  · rfl

end Steps

/-! ### Ways -/

theorem foldl_walk (items : List String) {place : Location} (relative : place.absolute = false) :
    items.foldl walk place.kept = (items.foldl Location.step place).kept := by
  induction items generalizing place with
  | nil => rfl
  | cons step items ih =>
    rw [List.foldl_cons, List.foldl_cons, walk_kept relative, ih]
    rw [Location.absolute_step, relative]

theorem foldl_root (items : List String) (up : Nat) (down : List String) :
    items.foldl Location.step ⟨true, 0, down⟩ =
      ⟨true, 0, (items.foldl Location.step ⟨false, up, down⟩).down⟩ := by
  induction items generalizing up down with
  | nil => rfl
  | cons step items ih =>
    have relative : (Location.step ⟨false, up, down⟩ step).absolute = false :=
      Location.absolute_step
    rw [List.foldl_cons, List.foldl_cons, Location.step_root up]
    generalize Location.step ⟨false, up, down⟩ step = place at relative ⊢
    obtain ⟨_, higher, lower⟩ := place
    subst relative
    exact ih higher lower

theorem foldl_absolute (items : List String) (place : Location) :
    (items.foldl Location.step place).absolute = place.absolute := by
  induction items generalizing place with
  | nil => rfl
  | cons step items ih => rw [List.foldl_cons, ih, Location.absolute_step]

theorem foldl_isName {items : List String} (free : ∀ item ∈ items, '/' ∉ item.toList)
    {place : Location} (names : ∀ name ∈ place.down, IsName name) :
    ∀ name ∈ (items.foldl Location.step place).down, IsName name := by
  induction items generalizing place with
  | nil => exact names
  | cons step items ih =>
    obtain ⟨here, later⟩ := List.forall_mem_cons.mp free
    exact ih later (Location.isName_step here names)

/-- Names lead down. -/
theorem foldl_names {names : List String} (each : ∀ name ∈ names, IsName name) (place : Location) :
    names.foldl Location.step place = { place with down := names.reverse ++ place.down } := by
  induction names generalizing place with
  | nil => rfl
  | cons name names ih =>
    obtain ⟨here, later⟩ := List.forall_mem_cons.mp each
    rw [List.foldl_cons, Location.step_name here, ih later]
    simp

/-- Steps up lead up from the start of a relative path. -/
theorem foldl_up (count up : Nat) :
    (List.replicate count "..").foldl Location.step ⟨false, up, []⟩ = ⟨false, up + count, []⟩ := by
  induction count generalizing up with
  | zero => rfl
  | succ count ih =>
    rw [List.replicate_succ, List.foldl_cons]
    show (List.replicate count "..").foldl Location.step ⟨false, up + 1, []⟩ = _
    rw [ih, Nat.add_right_comm, Nat.add_assoc]

/-! ### Places of paths -/

theorem isName_trail (path : String) : ∀ name ∈ (trail path).down, IsName name :=
  foldl_isName (not_mem_segments path) (List.forall_mem_nil _)

/-- A path leads where its trail does, but for the steps up from the root. -/
theorem location_eq (path : String) :
    location path =
      ⟨isAbsolute path, if isAbsolute path then 0 else ascent path, (trail path).down⟩ := by
  unfold location
  cases absolute : isAbsolute path with
  | true => exact foldl_root _ 0 []
  | false =>
    have relative : (trail path).absolute = false := foldl_absolute _ _
    show trail path = ⟨false, (trail path).up, (trail path).down⟩
    generalize trail path = place at relative ⊢
    obtain ⟨_, up, down⟩ := place
    subst relative
    rfl

section Straight

variable {place other : Location} (names : ∀ name ∈ place.down, IsName name)

include names in
theorem areSpelled_path : AreSpelled (List.replicate place.up ".." ++ place.down.reverse) := by
  intro item member
  rcases List.mem_append.mp member with up | down
  · rw [List.eq_of_mem_replicate up]
    decide
  · have name := names item (List.mem_reverse.mp down)
    exact ⟨name.nonempty, name.free⟩

include names in
/-- **The steps of the path that leads straight to a place** are its steps up and its names. -/
theorem steps_path :
    steps place.path = List.replicate place.up ".." ++ place.down.reverse := by
  refine steps_spell (areSpelled_path names) ?_ place.absolute
  rw [List.mem_append, not_or]
  refine ⟨fun up => ?_, fun down => (names _ (List.mem_reverse.mp down)).noDot rfl⟩
  exact absurd (List.eq_of_mem_replicate up) (by decide)

include names in
theorem isAbsolute_path : isAbsolute place.path = place.absolute :=
  isAbsolute_spell (areSpelled_path names) place.absolute

include names in
/-- What a straight path leads to, when the steps up from the root count, is its place. -/
theorem trail_path : trail place.path = ⟨false, place.up, place.down⟩ := by
  have down : ∀ name ∈ place.down.reverse, IsName name := fun name member =>
    names name (List.mem_reverse.mp member)
  have whole : trail place.path =
      (List.replicate place.up ".." ++ place.down.reverse).foldl Location.step ⟨false, 0, []⟩ := by
    unfold trail Location.path
    rw [segments_spell (areSpelled_path names)]
    -- Nothing comes of the empty steps at the root and in a path without steps.
    generalize List.replicate place.up ".." ++ place.down.reverse = items
    by_cases none : items = []
    · subst none
      cases place.absolute <;> rfl
    · rw [if_neg none]
      cases place.absolute <;> rfl
  rw [whole, List.foldl_append, foldl_up, foldl_names down, List.reverse_reverse, Nat.zero_add,
    List.append_nil]

/-- Steps up and names behind them are told apart. -/
theorem up_append_down {ups otherUps : Nat} {down otherDown : List String}
    (names : ∀ name ∈ down, IsName name) (otherNames : ∀ name ∈ otherDown, IsName name)
    (same : List.replicate ups ".." ++ down = List.replicate otherUps ".." ++ otherDown) :
    ups = otherUps ∧ down = otherDown := by
  induction ups generalizing otherUps with
  | zero =>
    cases otherUps with
    | zero => exact ⟨rfl, same⟩
    | succ otherUps =>
      have member : ".." ∈ down := by
        rw [show down = _ from same]
        exact List.mem_cons_self
      exact absurd rfl (names _ member).noDots
  | succ ups ih =>
    cases otherUps with
    | zero =>
      have member : ".." ∈ otherDown := by
        rw [show otherDown = _ from same.symm]
        exact List.mem_cons_self
      exact absurd rfl (otherNames _ member).noDots
    | succ otherUps =>
      obtain ⟨rfl, rest⟩ := ih (List.cons.inj same).2
      exact ⟨rfl, rest⟩

include names in
/-- **Straight paths lead to different places unless they are the same**, even step by step. -/
theorem path_inj (otherNames : ∀ name ∈ other.down, IsName name) :
    same place.path other.path = true ↔ place = other := by
  unfold same
  rw [Bool.and_eq_true, decide_eq_true_eq, decide_eq_true_eq, isAbsolute_path names,
    isAbsolute_path otherNames, steps_path names, steps_path otherNames]
  constructor
  · rintro ⟨absolute, steps⟩
    obtain ⟨up, down⟩ := up_append_down (fun name member => names name (List.mem_reverse.mp member))
      (fun name member => otherNames name (List.mem_reverse.mp member)) steps
    obtain ⟨_, _, _⟩ := place
    obtain ⟨_, _, _⟩ := other
    rw [List.reverse_inj] at down
    exact Location.mk.injEq _ _ _ _ _ _ ▸ ⟨absolute, up, down⟩
  · rintro rfl
    exact ⟨rfl, rfl⟩

include names in
theorem path_eq_iff (otherNames : ∀ name ∈ other.down, IsName name) :
    place.path = other.path ↔ place = other := by
  constructor
  · intro texts
    refine (path_inj names otherNames).mp ?_
    rw [texts]
    exact (path_inj otherNames otherNames).mpr rfl
  · rintro rfl
    rfl

end Straight

/-! ### Normal forms -/

/-- The place that the normal form of a path leads straight to. -/
def normalPlace (path : String) : Location :=
  ⟨isAbsolute path, ascent path % 2, (trail path).down⟩

/-- **The normal form of a path** leads straight to where the path leads, but for the steps up that
lead above its start: one of them is kept when their number is odd. -/
theorem normalize_eq (path : String) : normalize path = (normalPlace path).path := by
  have relative : (⟨false, 0, []⟩ : Location).absolute = false := rfl
  have kept : (segments path).foldl walk [] = (trail path).kept :=
    foldl_walk (segments path) relative
  unfold normalize Location.path spell rootText
  rw [kept]
  unfold Location.kept
  rw [List.reverse_append, List.reverse_replicate]
  rfl

theorem normalPlace_normalize (path : String) : normalPlace (normalize path) = normalPlace path := by
  have names : ∀ name ∈ (normalPlace path).down, IsName name := isName_trail path
  have trail := trail_path names
  rw [← normalize_eq] at trail
  show Location.mk (isAbsolute (normalize path)) ((Path.trail (normalize path)).up % 2)
    (Path.trail (normalize path)).down = normalPlace path
  rw [trail, normalize_eq, isAbsolute_path names]
  show Location.mk _ (ascent path % 2 % 2) _ = _
  rw [Nat.mod_mod]
  rfl

section Normal

variable (path : String)

theorem isName_normalPlace : ∀ name ∈ (normalPlace path).down, IsName name := isName_trail path

theorem down_location : (location path).down = (trail path).down := by rw [location_eq]

theorem isName_location : ∀ name ∈ (location path).down, IsName name := by
  rw [down_location]
  exact isName_trail path

/-- **The steps of a normal form**: a step up if the path's ascent is odd, and names. -/
theorem steps_normalize :
    steps (normalize path) =
      List.replicate (ascent path % 2) ".." ++ (location path).down.reverse := by
  rw [normalize_eq, steps_path (isName_normalPlace path), down_location]
  rfl

theorem dot_not_mem_normalize : "." ∉ steps (normalize path) := by
  rw [steps_normalize, List.mem_append, not_or]
  refine ⟨fun up => absurd (List.eq_of_mem_replicate up) (by decide), fun down => ?_⟩
  exact (isName_location path _ (List.mem_reverse.mp down)).noDot rfl

theorem dots_not_mem_names : ".." ∉ (location path).down.reverse := fun member =>
  (isName_location path _ (List.mem_reverse.mp member)).noDots rfl

theorem dots_mem_normalize : ".." ∈ steps (normalize path) ↔ ascent path % 2 = 1 := by
  rw [steps_normalize, List.mem_append, or_iff_left (dots_not_mem_names path), List.mem_replicate,
    eq_self, and_true]
  omega

theorem dots_not_mem_tail : ".." ∉ (steps (normalize path)).tail := by
  rw [steps_normalize]
  have names := dots_not_mem_names path
  rcases Nat.mod_two_eq_zero_or_one (ascent path) with even | odd
  · rw [even]
    exact fun member => names (List.mem_of_mem_tail member)
  · rw [odd]
    exact names

/-- Normal forms are told apart by their places. -/
theorem normalize_eq_iff (other : String) :
    normalize path = normalize other ↔ normalPlace path = normalPlace other := by
  rw [normalize_eq, normalize_eq, path_eq_iff (isName_normalPlace path) (isName_normalPlace other)]

/-- A normal form spells out where the path leads if the right steps up are kept. -/
theorem normalPlace_eq_iff :
    normalPlace path = location path ↔ (location path).up = ascent path % 2 := by
  rw [location_eq]
  unfold normalPlace
  rw [Location.mk.injEq]
  exact ⟨fun same => same.2.1.symm, fun same => ⟨rfl, same.symm, rfl⟩⟩

end Normal

/-- **What normal forms look like and which paths they tell apart.** A normal form has no step that
is a dot, and a step up at most in front of all others, which is so when the path's ascent is odd. It
is its own normal form, and two of them are the same path only if they are the same text. It spells
out where the path leads exactly when the steps up to there are what is left over of the ascent in
pairs. Two paths have the same normal form exactly when both start at the root or neither does, their
ascents are both even or both odd, and they lead down through the same names; if both normal forms
spell out where the paths lead, this is so exactly when the paths lead to the same place. -/
theorem normalize_locates (path other : String) :
    "." ∉ steps (normalize path) ∧ ".." ∉ (steps (normalize path)).tail ∧
    (".." ∈ steps (normalize path) ↔ ascent path % 2 = 1) ∧
    normalize (normalize path) = normalize path ∧
    (same (normalize path) (normalize other) = true ↔ normalize path = normalize other) ∧
    (normalize path = (location path).path ↔ (location path).up = ascent path % 2) ∧
    (normalize path = normalize other ↔ isAbsolute path = isAbsolute other ∧
      ascent path % 2 = ascent other % 2 ∧ (location path).down = (location other).down) ∧
    ((location path).up = ascent path % 2 → (location other).up = ascent other % 2 →
      (normalize path = normalize other ↔ location path = location other)) := by
  refine ⟨dot_not_mem_normalize path, dots_not_mem_tail path, dots_mem_normalize path, ?_, ?_, ?_,
    ?_, ?_⟩
  · rw [normalize_eq (normalize path), normalPlace_normalize, normalize_eq]
  · rw [normalize_eq_iff, normalize_eq, normalize_eq]
    exact path_inj (isName_normalPlace path) (isName_normalPlace other)
  · rw [normalize_eq, path_eq_iff (isName_normalPlace path) (isName_location path)]
    exact normalPlace_eq_iff path
  · rw [normalize_eq_iff, down_location, down_location]
    unfold normalPlace
    rw [Location.mk.injEq]
  · intro straight otherStraight
    rw [normalize_eq_iff, (normalPlace_eq_iff path).mpr straight,
      (normalPlace_eq_iff other).mpr otherStraight]

/-- Two steps up undo each other, and above the root one is kept. -/
theorem normalize_not_locates :
    location "../../a" ≠ location "a" ∧ normalize "../../a" = normalize "a" ∧
      location "/../a" = location "/a" ∧ normalize "/../a" ≠ normalize "/a" := by
  decide +kernel

end Path

end PromptMarkup
