/-
**Fields by name.**

A list of fields is a map as long as its names differ, in the order in which they have been set
first.

* `names_insert`, `mem_insert`, `nodup_insertAll`: what setting fields does to the names;
* `insertAll_insertAll`: fields that are set on their own before;
* `lookup_eq_none`, `lookup_of_mem`: what is looked up and what is not;
* `lookup_reverse`: names that differ are looked up in any order;
* `lookup_insertAll`: of fields that are set one after the other the last one counts.
-/

import Mathlib.Data.List.Induction
import PromptMarkup.Json.Basic

namespace PromptMarkup

/-- What is listed by its first ones is listed once. -/
theorem nodup_eraseDups {α : Type} [DecidableEq α] (list : List α) : list.eraseDups.Nodup := by
  cases list with
  | nil =>
    rw [List.eraseDups_nil]
    exact .nil
  | cons first rest =>
    rw [List.eraseDups_cons, List.nodup_cons, List.mem_eraseDups]
    refine ⟨?_, nodup_eraseDups _⟩
    simp
termination_by list.length
decreasing_by exact Nat.lt_succ_of_le (List.length_filter_le _ _)

namespace Fields

variable {α : Type} {fields more : List (String × α)} {key other : String}

/-! ### Names -/

theorem names_insert (key : String) (value : α) (fields : List (String × α)) :
    names (insert key value fields) =
      if key ∈ names fields then names fields else names fields ++ [key] := by
  induction fields with
  | nil => rfl
  | cons field rest ih =>
    obtain ⟨name, old⟩ := field
    by_cases same : key = name
    · simp [insert, names, same]
    · have head : names (insert key value ((name, old) :: rest)) =
          name :: names (insert key value rest) := by
        rw [insert, if_neg same]
        rfl
      have member : key ∈ names ((name, old) :: rest) ↔ key ∈ names rest := by
        simp [names, same]
      rw [head, ih]
      simp only [member]
      split <;> rfl

theorem mem_names_insert (key : String) (value : α) (fields : List (String × α)) :
    key ∈ names (insert key value fields) := by
  rw [names_insert]
  split
  next there => exact there
  next => exact List.mem_append_right _ List.mem_cons_self

theorem mem_names_insert_of_mem (member : key ∈ names fields) (other : String) (value : α) :
    key ∈ names (insert other value fields) := by
  rw [names_insert]
  split
  next => exact member
  next => exact List.mem_append_left _ member

theorem mem_insert {value : α} {field : String × α} (member : field ∈ insert key value fields) :
    field = (key, value) ∨ field ∈ fields := by
  induction fields with
  | nil => exact .inl (List.mem_singleton.mp member)
  | cons first rest ih =>
    rw [insert] at member
    split at member
    next same =>
      subst same
      exact (List.mem_cons.mp member).imp_right (List.mem_cons_of_mem _)
    next =>
      rcases List.mem_cons.mp member with rfl | later
      · exact .inr List.mem_cons_self
      · exact (ih later).imp_right (List.mem_cons_of_mem _)

/-- Setting a field keeps names apart. -/
theorem nodup_insert (apart : (names fields).Nodup) (key : String) (value : α) :
    (names (insert key value fields)).Nodup := by
  rw [names_insert]
  split
  next => exact apart
  next fresh =>
    refine List.nodup_append.mpr ⟨apart, List.pairwise_singleton .., fun name there last only => ?_⟩
    rw [List.mem_singleton.mp only]
    exact fun same => fresh (same ▸ there)

/-- Setting some fields keeps names apart. -/
theorem nodup_insertAll (apart : (names fields).Nodup) (more : List (String × α)) :
    (names (insertAll fields more)).Nodup := by
  unfold insertAll
  induction more generalizing fields with
  | nil => exact apart
  | cons field rest ih => exact ih (nodup_insert apart field.1 field.2)

/-! ### Fields set one by one -/

theorem insert_insert_self (key : String) (old value : α) (fields : List (String × α)) :
    insert key value (insert key old fields) = insert key value fields := by
  induction fields with
  | nil => simp only [insert, if_true]
  | cons field rest ih =>
    obtain ⟨name, first⟩ := field
    by_cases same : key = name
    · simp only [insert, same, if_true]
    · simp only [insert, same, if_false, ih]

/-- A field that is there already keeps its place, so that others may be set before or after. -/
theorem insert_insert_of_mem (different : key ≠ other) {fields : List (String × α)}
    (member : key ∈ names fields) (value more : α) :
    insert key value (insert other more fields) = insert other more (insert key value fields) := by
  induction fields with
  | nil => cases member
  | cons field rest ih =>
    obtain ⟨name, first⟩ := field
    by_cases here : key = name
    · subst here
      simp only [insert, different.symm, if_true, if_false]
    · have later : key ∈ names rest := (List.mem_cons.mp member).resolve_left here
      by_cases there : other = name
      · subst there
        simp only [insert, here, if_true, if_false]
      · simp only [insert, here, there, if_false, ih later]

theorem insert_insertAll_of_mem {fields more : List (String × α)} (member : key ∈ names fields)
    (fresh : key ∉ names more) (value : α) :
    insert key value (insertAll fields more) = insertAll (insert key value fields) more := by
  induction more generalizing fields with
  | nil => rfl
  | cons field rest ih =>
    obtain ⟨different, apart⟩ := not_or.mp (mt List.mem_cons.mpr fresh)
    have inside := mem_names_insert_of_mem member field.1 field.2
    exact (ih inside apart).trans
      (congrArg (insertAll · rest) (insert_insert_of_mem different member value field.2))

/-- **Fields set one by one**: it does not matter whether the last one has been set among the others
before. -/
theorem insertAll_insert {more : List (String × α)} (apart : (names more).Nodup)
    (fields : List (String × α)) (key : String) (value : α) :
    insertAll fields (insert key value more) = insert key value (insertAll fields more) := by
  induction more generalizing fields with
  | nil => rfl
  | cons field rest ih =>
    obtain ⟨name, old⟩ := field
    obtain ⟨fresh, others⟩ := List.nodup_cons.mp apart
    rw [insert]
    split
    next same =>
      subst same
      have set := insert_insertAll_of_mem (mem_names_insert key old fields) fresh value
      rw [insert_insert_self] at set
      exact set.symm
    next => exact ih others (insert name old fields)

/-- **Fields set on their own before** are set as if they had not been. -/
theorem insertAll_insertAll (fields more : List (String × α)) :
    insertAll fields (insertAll [] more) = insertAll fields more := by
  induction more using List.reverseRecOn with
  | nil => rfl
  | append_singleton more field ih =>
    have last : ∀ fields : List (String × α), insertAll fields (more ++ [field]) =
        insert field.1 field.2 (insertAll fields more) := fun _ => List.foldl_append
    have apart : (names (insertAll ([] : List (String × α)) more)).Nodup := by
      refine nodup_insertAll ?_ more
      exact List.nodup_nil
    rw [last, last, insertAll_insert apart, ih]

/-! ### What is looked up -/

theorem lookup_eq_none : fields.lookup key = none ↔ key ∉ names fields := by
  rw [List.lookup_eq_none_iff, names, List.mem_map, not_exists]
  refine forall_congr' fun field => ?_
  rw [not_and, bne_iff_ne]
  exact forall_congr' fun _ => ne_comm

theorem lookup_of_mem (apart : (names fields).Nodup) {field : String × α}
    (member : field ∈ fields) : fields.lookup field.1 = some field.2 := by
  induction fields with
  | nil => cases member
  | cons first rest ih =>
    obtain ⟨fresh, others⟩ := List.nodup_cons.mp apart
    rcases List.mem_cons.mp member with rfl | later
    · exact List.lookup_cons_self
    · have different : field.1 ≠ first.1 := fun same => fresh (same ▸ List.mem_map_of_mem later)
      rw [List.lookup_cons, beq_false_of_ne different]
      exact ih others later

/-- Names that differ are looked up in any order. -/
theorem lookup_reverse (apart : (names fields).Nodup) (key : String) :
    fields.reverse.lookup key = fields.lookup key := by
  induction fields with
  | nil => rfl
  | cons field rest ih =>
    obtain ⟨fresh, others⟩ := List.nodup_cons.mp apart
    obtain ⟨name, value⟩ := field
    rw [List.reverse_cons, List.lookup_append, ih others]
    by_cases same : key = name
    · subst same
      have absent : rest.lookup key = none := lookup_eq_none.mpr fresh
      simp [absent]
    · simp [List.lookup_cons, beq_false_of_ne same]

theorem lookup_insert (key name : String) (value : α) (fields : List (String × α)) :
    (insert key value fields).lookup name =
      (List.lookup name [(key, value)]).or (fields.lookup name) := by
  by_cases same : name = key
  · simp [same, lookup_insert_self]
  · simp [lookup_insert_of_ne same, List.lookup_cons, beq_false_of_ne same]

/-- The last of the fields that are set counts. -/
theorem lookup_insertAll (fields more : List (String × α)) (name : String) :
    (insertAll fields more).lookup name = (more.reverse.lookup name).or (fields.lookup name) := by
  unfold insertAll
  induction more generalizing fields with
  | nil => simp
  | cons field rest ih =>
    rw [List.foldl_cons, ih, lookup_insert, List.reverse_cons, List.lookup_append, Option.or_assoc]

/-- A field that is looked up is there. -/
theorem mem_of_lookup {fields : List (String × α)} {name : String} {value : α}
    (found : fields.lookup name = some value) : (name, value) ∈ fields := by
  obtain ⟨front, back, rfl, -⟩ := List.lookup_eq_some_iff.mp found
  simp

/-- A name that is there is looked up. -/
theorem exists_lookup {fields : List (String × α)} {field : String × α} (member : field ∈ fields) :
    ∃ value, fields.lookup field.1 = some value := by
  refine Option.ne_none_iff_exists'.mp fun missing => ?_
  simpa using List.lookup_eq_none_iff.mp missing field member

end Fields

end PromptMarkup
