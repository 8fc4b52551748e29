/-
**The cascade of stylesheets.**

A stylesheet on top of another one is merged into its rules selector by selector, and each selector
keeps the place where it has been set first. Of the rules that name an element the last one counts.
So a prop that the stylesheet on top sets for an element can be taken from an older rule, which is
kept behind it under another name of the component.

* `IsSound`: selectors and props are set once each, which is so for all stylesheets that can be made;
* `value?`, `value?_merge`: what the rule for a selector gives, and what is merged into it;
* `selectors_merge`: the order of the selectors;
* `deciding?`, `lookup_defaults`: the rule that gives an element a prop;
* `Cascades`, `cascades_iff`: the later stylesheet wins prop by prop, and when that is so.
-/

import PromptMarkup.Component.Stylesheet
import PromptMarkup.Proofs.Chat.RequestFields
import PromptMarkup.Proofs.Value.Fields

namespace PromptMarkup

namespace Stylesheet

/-! ### Sheets -/

/-- The selectors in the order of their rules. -/
def selectors (sheet : Stylesheet) : List String := Fields.names sheet.rules

/-- The value that the rule for a selector gives to a prop. -/
def value? (sheet : Stylesheet) (prop selector : String) : Option Value :=
  (sheet.rules.lookup selector).bind (·.lookup prop)

/-- There is one rule for a selector, and it sets a prop once. -/
structure IsSound (sheet : Stylesheet) : Prop where
  selectors : sheet.selectors.Nodup
  props : ∀ rule ∈ sheet.rules, (Fields.names rule.2).Nodup

variable {sheet other : Stylesheet}

theorem isSound_empty : empty.IsSound := ⟨List.nodup_nil, nofun⟩

theorem IsSound.lookup (sound : sheet.IsSound) {selector : String} {props : Props}
    (found : sheet.rules.lookup selector = some props) : (Fields.names props).Nodup :=
  sound.props _ (Fields.mem_of_lookup found)

theorem IsSound.extend (sound : sheet.IsSound) (key : String) (props : Props) :
    (sheet.extend key props).IsSound := by
  refine ⟨Fields.nodup_insert sound.selectors key _, fun rule member => ?_⟩
  rcases Fields.mem_insert member with rfl | kept
  · refine Fields.nodup_insertAll ?_ props
    cases found : sheet.rules.lookup key with
    | none => exact List.nodup_nil
    | some old => exact sound.lookup found
  · exact sound.props rule kept

/-- **Stylesheets are sound, however they are made.** -/
theorem IsSound.set (sound : sheet.IsSound) (selector prop : String) (value : Value) :
    (sheet.set selector prop value).IsSound :=
  sound.extend _ _

theorem IsSound.merge (sound : sheet.IsSound) (other : Stylesheet) :
    (sheet.merge other).IsSound := by
  unfold Stylesheet.merge
  generalize other.rules = rules
  induction rules generalizing sheet with
  | nil => exact sound
  | cons rule rest ih => exact ih (sound.extend rule.1 rule.2)

theorem isSound_ofJson {json : Json} (made : ofJson json = .ok sheet) : sheet.IsSound := by
  cases json with
  | object selectors =>
    unfold ofJson at made
    simp only at made
    have sound := isSound_empty
    generalize empty = start at made sound
    induction selectors generalizing start with
    | nil =>
      cases made
      exact sound
    | cons field rest ih =>
      obtain ⟨selector, rule⟩ := field
      cases rule with
      | object props =>
        refine ih _ made ?_
        clear made ih
        induction props generalizing start with
        | nil => exact sound
        | cons prop others ih => exact ih _ (sound.set selector prop.1 (.ofJson prop.2))
      | _ => cases made
  | _ => cases made

/-! ### Merging -/

theorem value?_extend (sheet : Stylesheet) (key : String) {props : Props}
    (apart : (Fields.names props).Nodup) (prop selector : String) :
    (sheet.extend key props).value? prop selector =
      if selector = key then (props.lookup prop).or (sheet.value? prop selector)
      else sheet.value? prop selector := by
  unfold value? Stylesheet.extend
  split
  next same =>
    subst same
    rw [Fields.lookup_insert_self, Option.bind_some, Fields.lookup_insertAll,
      Fields.lookup_reverse apart]
    cases sheet.rules.lookup selector <;> rfl
  next different => rw [Fields.lookup_insert_of_ne different]

/-- **A stylesheet that is merged in sets props on top of those that are set for the selector.** -/
theorem value?_merge (sound : other.IsSound) (prop selector : String) :
    (sheet.merge other).value? prop selector =
      (other.value? prop selector).or (sheet.value? prop selector) := by
  obtain ⟨rules⟩ := other
  induction rules generalizing sheet with
  | nil => rfl
  | cons rule rest ih =>
    obtain ⟨key, props⟩ := rule
    obtain ⟨fresh, apart⟩ := List.nodup_cons.mp sound.selectors
    have later : IsSound ⟨rest⟩ :=
      ⟨apart, fun rule member => sound.props rule (List.mem_cons_of_mem _ member)⟩
    have own : (Fields.names props).Nodup := sound.props _ List.mem_cons_self
    show (merge (sheet.extend key props) ⟨rest⟩).value? prop selector = _
    rw [ih later, value?_extend sheet key own]
    by_cases same : selector = key
    · subst same
      have absent : rest.lookup selector = none := Fields.lookup_eq_none.mpr fresh
      simp [value?, absent]
    · simp [same, value?, List.lookup_cons, beq_false_of_ne same]

/-- The selectors that are new come last. -/
theorem selectors_merge (apart : other.selectors.Nodup) :
    (sheet.merge other).selectors =
      sheet.selectors ++ other.selectors.filter (· ∉ sheet.selectors) := by
  obtain ⟨rules⟩ := other
  induction rules generalizing sheet with
  | nil => simp [merge, selectors, Fields.names]
  | cons rule rest ih =>
    obtain ⟨fresh, apart⟩ := List.nodup_cons.mp apart
    have first : (sheet.extend rule.1 rule.2).selectors = if rule.1 ∈ sheet.selectors
        then sheet.selectors else sheet.selectors ++ [rule.1] := Fields.names_insert _ _ _
    show (merge (sheet.extend rule.1 rule.2) ⟨rest⟩).selectors = _
    have parts : selectors ⟨rule :: rest⟩ = rule.1 :: selectors ⟨rest⟩ := rfl
    rw [ih apart, first, parts, List.filter_cons]
    by_cases known : rule.1 ∈ sheet.selectors
    · simp only [known, if_true, not_true_eq_false, decide_false, Bool.false_eq_true, if_false]
    · have same : (selectors ⟨rest⟩).filter (· ∉ sheet.selectors ++ [rule.1]) =
          (selectors ⟨rest⟩).filter (· ∉ sheet.selectors) := by
        refine List.filter_congr fun selector member => ?_
        have different : selector ≠ rule.1 := fun same => fresh (same ▸ member)
        simp [different]
      simp only [known, if_false, same, not_false_eq_true, decide_true, if_true,
        List.append_assoc, List.singleton_append]

/-! ### Props of an element -/

variable {component : Component} {tag prop : String}

/-- The selectors that name an element, in the order of their rules. -/
def naming (sheet : Stylesheet) (component : Component) (tag : String) : List String :=
  sheet.selectors.filter (· ∈ keysFor component tag)

/-- The last selector that names an element and sets a prop for it. -/
def deciding? (sheet : Stylesheet) (component : Component) (tag prop : String) : Option String :=
  (sheet.naming component tag).reverse.find? fun selector => (sheet.value? prop selector).isSome

theorem lookup_foldl_insertAll {rules : List (String × Props)}
    (apart : ∀ rule ∈ rules, (Fields.names rule.2).Nodup) (props : Props) :
    (rules.foldl (fun props rule => Fields.insertAll props rule.2) props).lookup prop =
      (rules.reverse.findSome? (·.2.lookup prop)).or (props.lookup prop) := by
  induction rules generalizing props with
  | nil => rfl
  | cons rule rest ih =>
    rw [List.foldl_cons, ih fun rule member => apart rule (List.mem_cons_of_mem _ member),
      Fields.lookup_insertAll, Fields.lookup_reverse (apart rule List.mem_cons_self),
      List.reverse_cons, List.findSome?_append, Option.or_assoc, List.findSome?_cons,
      List.findSome?_nil]
    cases rule.2.lookup prop <;> rfl

theorem findSome?_eq_bind {α β : Type} (value : α → Option β) (list : List α) :
    list.findSome? value = (list.find? fun item => (value item).isSome).bind value := by
  induction list with
  | nil => rfl
  | cons first rest ih =>
    cases given : value first with
    | none => simp [given, ih]
    | some result => simp [given]

theorem findSome?_congr {α β : Type} {value other : α → Option β} {list : List α}
    (same : ∀ item ∈ list, value item = other item) :
    list.findSome? value = list.findSome? other := by
  induction list with
  | nil => rfl
  | cons first rest ih =>
    rw [List.findSome?_cons, List.findSome?_cons, same first List.mem_cons_self,
      ih fun item member => same item (List.mem_cons_of_mem _ member)]

/-- **The last rule that names an element gives it a prop**, or else the rule for all components. -/
theorem lookup_defaults (sound : sheet.IsSound) :
    (sheet.defaults component tag).lookup prop =
      ((sheet.deciding? component tag prop).bind (sheet.value? prop)).or
        (sheet.value? prop anyComponent) := by
  have named : (sheet.rules.filter fun rule => rule.1 ∈ keysFor component tag).map Prod.fst =
      sheet.naming component tag := by
    rw [naming, selectors, Fields.names, List.filter_map]
    rfl
  have given : ∀ rule ∈ (sheet.rules.filter fun rule => rule.1 ∈ keysFor component tag).reverse,
      rule.2.lookup prop = sheet.value? prop rule.1 := by
    intro rule member
    have stored := (List.mem_filter.mp (List.mem_reverse.mp member)).1
    rw [value?, Fields.lookup_of_mem sound.selectors stored, Option.bind_some]
  have every : (Fields.insertAll [] ((sheet.rules.lookup anyComponent).getD [])).lookup prop =
      sheet.value? prop anyComponent := by
    rw [Fields.lookup_insertAll, value?]
    cases found : sheet.rules.lookup anyComponent with
    | none => rfl
    | some props =>
      rw [Option.getD_some, Fields.lookup_reverse (sound.lookup found)]
      simp
  have apart : ∀ rule ∈ sheet.rules.filter fun rule => rule.1 ∈ keysFor component tag,
      (Fields.names rule.2).Nodup :=
    fun rule member => sound.props rule (List.mem_filter.mp member).1
  rw [defaults, lookup_foldl_insertAll apart, every, deciding?, ← findSome?_eq_bind, ← named,
    ← List.map_reverse, List.findSome?_map]
  exact congrArg (Option.or · _) (findSome?_congr given)

/-! ### The later stylesheet on top -/

/-- A stylesheet sets a prop of an element through a selector that names it. -/
def Sets (sheet : Stylesheet) (component : Component) (tag prop : String) : Prop :=
  ∃ selector ∈ keysFor component tag, (sheet.value? prop selector).isSome = true

theorem mem_selectors_of_isSome {selector : String}
    (set : (sheet.value? prop selector).isSome = true) : selector ∈ sheet.selectors := by
  by_contra absent
  rw [value?, Fields.lookup_eq_none.mpr absent] at set
  cases set

theorem sets_iff : sheet.Sets component tag prop ↔
    ∃ selector, sheet.deciding? component tag prop = some selector := by
  rw [← Option.isSome_iff_exists, deciding?, List.find?_isSome]
  constructor
  · rintro ⟨selector, named, set⟩
    refine ⟨selector, List.mem_reverse.mpr (List.mem_filter.mpr ⟨?_, decide_eq_true named⟩), set⟩
    exact mem_selectors_of_isSome set
  · rintro ⟨selector, member, set⟩
    exact ⟨selector, of_decide_eq_true (List.mem_filter.mp (List.mem_reverse.mp member)).2, set⟩

/-- A prop of an element is what the later stylesheet alone would give where it sets it, else what
the earlier one alone would give where that sets it, and else what they say of every component. -/
structure Cascades (sheet other : Stylesheet) (component : Component) (tag prop : String) : Prop where
  later : other.Sets component tag prop →
    ((sheet.merge other).defaults component tag).lookup prop =
      (other.defaults component tag).lookup prop
  earlier : ¬ other.Sets component tag prop → sheet.Sets component tag prop →
    ((sheet.merge other).defaults component tag).lookup prop =
      (sheet.defaults component tag).lookup prop
  every : ¬ other.Sets component tag prop → ¬ sheet.Sets component tag prop →
    ((sheet.merge other).defaults component tag).lookup prop =
      (other.value? prop anyComponent).or (sheet.value? prop anyComponent)

theorem naming_merge (apart : other.selectors.Nodup) : (sheet.merge other).naming component tag =
    sheet.naming component tag ++
      (other.naming component tag).filter (· ∉ sheet.selectors) := by
  simp only [naming, selectors_merge apart, List.filter_append, List.filter_filter, Bool.and_comm]

theorem mem_keysFor_of_naming {selector : String} (named : selector ∈ sheet.naming component tag) :
    selector ∈ keysFor component tag :=
  of_decide_eq_true (List.mem_filter.mp named).2

theorem value?_eq_none_of_unset (unset : ¬ sheet.Sets component tag prop) {selector : String}
    (named : selector ∈ keysFor component tag) : sheet.value? prop selector = none := by
  by_contra set
  exact unset ⟨selector, named, Option.isSome_iff_ne_none.mpr set⟩

theorem value?_eq_none_of_new {selector : String} (new : selector ∉ sheet.selectors) :
    sheet.value? prop selector = none := by
  rw [value?, Fields.lookup_eq_none.mpr new, Option.bind_none]

/-- What the later stylesheet does not set is decided as before. -/
theorem decided_merge_of_unset (second : other.IsSound)
    (unset : ¬ other.Sets component tag prop) :
    ((sheet.merge other).deciding? component tag prop).bind ((sheet.merge other).value? prop) =
      (sheet.deciding? component tag prop).bind (sheet.value? prop) := by
  have none : ((other.naming component tag).filter (· ∉ sheet.selectors)).reverse.findSome?
      ((sheet.merge other).value? prop) = none := by
    refine List.findSome?_eq_none_iff.mpr fun selector member => ?_
    obtain ⟨named, new⟩ := List.mem_filter.mp (List.mem_reverse.mp member)
    rw [value?_merge second, value?_eq_none_of_unset unset (mem_keysFor_of_naming named),
      value?_eq_none_of_new (of_decide_eq_true new), Option.or_none]
  rw [deciding?, deciding?, ← findSome?_eq_bind, ← findSome?_eq_bind,
    naming_merge second.selectors, List.reverse_append, List.findSome?_append, none, Option.none_or]
  refine findSome?_congr fun selector member => ?_
  have named := mem_keysFor_of_naming (List.mem_reverse.mp member)
  rw [value?_merge second, value?_eq_none_of_unset unset named, Option.none_or]

theorem isSome_of_deciding {selector : String}
    (decides : sheet.deciding? component tag prop = some selector) :
    (sheet.value? prop selector).isSome = true :=
  @List.find?_some _ (fun selector => (sheet.value? prop selector).isSome) selector _ decides

theorem lookup_defaults_of_deciding (sound : sheet.IsSound) {selector : String}
    (decides : sheet.deciding? component tag prop = some selector) :
    (sheet.defaults component tag).lookup prop = sheet.value? prop selector := by
  obtain ⟨value, given⟩ := Option.isSome_iff_exists.mp (isSome_of_deciding decides)
  rw [lookup_defaults sound, decides, Option.bind_some, given, Option.some_or]

theorem deciding?_eq_none_of_unset (unset : ¬ sheet.Sets component tag prop) :
    sheet.deciding? component tag prop = none := by
  by_contra decides
  exact unset (sets_iff.mpr (Option.ne_none_iff_exists'.mp decides))

theorem Sets.merge (second : other.IsSound) (set : other.Sets component tag prop) :
    (sheet.merge other).Sets component tag prop := by
  obtain ⟨selector, named, given⟩ := set
  refine ⟨selector, named, ?_⟩
  rw [value?_merge second, Option.isSome_or, given, Bool.true_or]

theorem cascades_of_unset (first : sheet.IsSound) (second : other.IsSound)
    (unset : ¬ other.Sets component tag prop) : sheet.Cascades other component tag prop := by
  refine ⟨fun set => absurd set unset, fun _ set => ?_, fun _ free => ?_⟩
  · obtain ⟨selector, decides⟩ := sets_iff.mp set
    obtain ⟨value, given⟩ := Option.isSome_iff_exists.mp (isSome_of_deciding decides)
    rw [lookup_defaults (first.merge other), decided_merge_of_unset second unset, decides,
      Option.bind_some, given, Option.some_or, lookup_defaults_of_deciding first decides, given]
  · rw [lookup_defaults (first.merge other), decided_merge_of_unset second unset,
      deciding?_eq_none_of_unset free, Option.bind_none, Option.none_or, ← value?_merge second]

/-- The rule that decides is new, so it stays the last one. -/
theorem deciding?_merge_of_new (second : other.IsSound) {last : String}
    (decides : other.deciding? component tag prop = some last) (new : last ∉ sheet.selectors) :
    (sheet.merge other).deciding? component tag prop = some last := by
  obtain ⟨set, front, back, order, unset⟩ := List.find?_eq_some_iff_append.mp decides
  have skipped : ∀ selector ∈ front.filter (· ∉ sheet.selectors),
      (!((sheet.merge other).value? prop selector).isSome) = true := by
    intro selector member
    obtain ⟨before, fresh⟩ := List.mem_filter.mp member
    rw [value?_merge second, value?_eq_none_of_new (of_decide_eq_true fresh), Option.or_none]
    exact unset selector before
  have given : ((sheet.merge other).value? prop last).isSome = true := by
    rw [value?_merge second, Option.isSome_or, set, Bool.true_or]
  have kept : (last :: back).filter (· ∉ sheet.selectors) =
      last :: back.filter (· ∉ sheet.selectors) := List.filter_cons_of_pos (by simpa using new)
  rw [deciding?, naming_merge second.selectors, List.reverse_append, ← List.filter_reverse, order,
    List.filter_append, kept, List.append_assoc, List.cons_append]
  exact List.find?_eq_some_iff_append.mpr ⟨given, _, _, rfl, skipped⟩

theorem cascades_iff_decided (first : sheet.IsSound) (second : other.IsSound) :
    sheet.Cascades other component tag prop ↔ ∀ last deciding,
      other.deciding? component tag prop = some last →
      (sheet.merge other).deciding? component tag prop = some deciding →
      (other.value? prop deciding).or (sheet.value? prop deciding) = other.value? prop last := by
  constructor
  · intro cascades last deciding decides wins
    rw [← value?_merge second, ← lookup_defaults_of_deciding (first.merge other) wins,
      cascades.later (sets_iff.mpr ⟨last, decides⟩), lookup_defaults_of_deciding second decides]
  · intro same
    by_cases set : other.Sets component tag prop
    · refine ⟨fun _ => ?_, fun unset => absurd set unset, fun unset => absurd set unset⟩
      obtain ⟨last, decides⟩ := sets_iff.mp set
      obtain ⟨deciding, wins⟩ := sets_iff.mp (set.merge second)
      rw [lookup_defaults_of_deciding (first.merge other) wins, value?_merge second,
        same last deciding decides wins, lookup_defaults_of_deciding second decides]
    · exact cascades_of_unset first second set

/-- The rule of the later stylesheet decides, as long as no other one takes its place. -/
theorem cascades_of_same_deciding (first : sheet.IsSound) (second : other.IsSound)
    (same : ∀ last deciding, other.deciding? component tag prop = some last →
      (sheet.merge other).deciding? component tag prop = some deciding → deciding = last) :
    sheet.Cascades other component tag prop := by
  refine (cascades_iff_decided first second).mpr fun last deciding decides wins => ?_
  obtain rfl := same last deciding decides wins
  obtain ⟨value, given⟩ := Option.isSome_iff_exists.mp (isSome_of_deciding decides)
  rw [given, Option.some_or]

theorem mem_selectors_of_deciding {selector : String}
    (decides : sheet.deciding? component tag prop = some selector) :
    selector ∈ keysFor component tag ∧ selector ∈ sheet.selectors := by
  have named := List.mem_reverse.mp (List.mem_of_find?_eq_some decides)
  exact ⟨mem_keysFor_of_naming named, (List.mem_filter.mp named).1⟩

theorem mem_selectors_merge (second : other.IsSound) {selector : String} :
    selector ∈ (sheet.merge other).selectors ↔
      selector ∈ sheet.selectors ∨ selector ∈ other.selectors := by
  rw [selectors_merge second.selectors, List.mem_append, List.mem_filter, decide_eq_true_eq]
  tauto

/-- **When the later stylesheet wins prop by prop.** It does exactly when the rule that decides in
the end gives what the last rule of the later stylesheet gives: where that stylesheet does not set
the prop, where the selector of that rule is new, and where all rules for the element have one
selector. -/
theorem cascades_iff (first : sheet.IsSound) (second : other.IsSound) (component : Component)
    (tag prop : String) :
    (sheet.Cascades other component tag prop ↔ ∀ last deciding,
      other.deciding? component tag prop = some last →
      (sheet.merge other).deciding? component tag prop = some deciding →
      (other.value? prop deciding).or (sheet.value? prop deciding) = other.value? prop last) ∧
    (¬ other.Sets component tag prop → sheet.Cascades other component tag prop) ∧
    ((∀ last, other.deciding? component tag prop = some last → last ∉ sheet.selectors) →
      sheet.Cascades other component tag prop) ∧
    ((∀ one ∈ keysFor component tag, ∀ another ∈ keysFor component tag,
      one ∈ sheet.selectors ∨ one ∈ other.selectors →
      another ∈ sheet.selectors ∨ another ∈ other.selectors → one = another) →
      sheet.Cascades other component tag prop) := by
  refine ⟨cascades_iff_decided first second, cascades_of_unset first second, fun new => ?_,
    fun single => ?_⟩
  · refine cascades_of_same_deciding first second fun last deciding decides wins => ?_
    rw [deciding?_merge_of_new second decides (new last decides)] at wins
    exact (Option.some.inj wins).symm
  · refine cascades_of_same_deciding first second fun last deciding decides wins => ?_
    obtain ⟨named, stored⟩ := mem_selectors_of_deciding decides
    obtain ⟨names, merged⟩ := mem_selectors_of_deciding wins
    exact single deciding names last named ((mem_selectors_merge second).mp merged) (.inr stored)

/-- A later rule for one name of a paragraph behind an earlier one for the other. -/
theorem cascades_iff_paragraph :
    ∃ sheet other : Stylesheet, sheet.IsSound ∧ other.IsSound ∧
      sheet = empty.set "p" "syntax" (.string "text") ∧
      other = empty.set "paragraph" "syntax" (.string "html") ∧
      sheet.Cascades other ⟨"p", ["paragraph"], .paragraph, [], none, ""⟩ "p" "syntax" := by
  have first : (empty.set "p" "syntax" (.string "text")).IsSound := isSound_empty.set _ _ _
  have second : (empty.set "paragraph" "syntax" (.string "html")).IsSound :=
    isSound_empty.set _ _ _
  refine ⟨_, _, first, second, rfl, rfl, ?_⟩
  refine (cascades_iff first second _ "p" "syntax").2.2.1 fun last decides => ?_
  have isParagraph : some "paragraph" = some last := decides
  exact Option.some.inj isParagraph ▸ by decide

/-- The later rule for a paragraph loses to an earlier one for another name of it. -/
theorem not_cascades_paragraph :
    ∃ sheet other : Stylesheet, sheet.IsSound ∧ other.IsSound ∧
      sheet = (empty.set "p" "syntax" (.string "text")).set "paragraph" "syntax" (.string "html") ∧
      other = empty.set "p" "syntax" (.string "json") ∧
      ¬ sheet.Cascades other ⟨"p", ["paragraph"], .paragraph, [], none, ""⟩ "p" "syntax" := by
  refine ⟨_, _, (isSound_empty.set _ _ _).set _ _ _, isSound_empty.set _ _ _, rfl, rfl, ?_⟩
  intro cascades
  have same : some (Value.string "html") = some (Value.string "json") :=
    cascades.later ⟨"p", by decide, rfl⟩
  exact absurd (Value.string.inj (Option.some.inj same)) (by decide)

end Stylesheet

end PromptMarkup
