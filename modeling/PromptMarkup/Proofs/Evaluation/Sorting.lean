/-
**What sorting at includes leaves as it is.**

Evaluations that come into a trace sorted are the same evaluations. Their keys have first ones in
the same order, and those that stand at one place of one file stay in the order they happened in.
Evaluations at different places may change their order, and those of one record among them.

* `settled_perm`: sorted evaluations are those of the journal;
* `keys_settled`: their keys come in the same order;
* `filter_settled`: and so do the evaluations at a place;
* `grouped_settled`: the records of the sorted evaluations against those of the journal.
-/

import PromptMarkup.Proofs.Evaluation.Journal

namespace PromptMarkup

/-! ### First ones -/

section Firsts

variable {α β : Type} [DecidableEq α] [DecidableEq β]

theorem eraseDups_filter (keep : α → Bool) (list : List α) :
    (list.filter keep).eraseDups = list.eraseDups.filter keep := by
  cases list with
  | nil => rw [List.filter_nil, List.eraseDups_nil, List.filter_nil]
  | cons first rest =>
    have later := eraseDups_filter keep (rest.filter fun other => !other == first)
    rw [List.filter_filter] at later
    rw [List.eraseDups_cons, List.filter_cons, List.filter_cons]
    split
    · rw [List.eraseDups_cons, List.filter_filter, ← later]
      simp only [Bool.and_comm]
    next dropped =>
      rw [← later]
      congr 1
      refine List.filter_congr fun other _ => ?_
      by_cases same : other = first
      · rw [same, Bool.eq_false_iff.mpr dropped, Bool.false_and]
      · rw [beq_eq_false_iff_ne.mpr same, Bool.not_false, Bool.and_true]
termination_by list.length
decreasing_by exact Nat.lt_succ_of_le (List.length_filter_le _ _)

/-- The first ones of some images are those of the images of the first ones. -/
theorem eraseDups_map (image : α → β) (list : List α) :
    (list.map image).eraseDups = (list.eraseDups.map image).eraseDups := by
  cases list with
  | nil => rw [List.map_nil, List.eraseDups_nil, List.eraseDups_nil, List.map_nil,
      List.eraseDups_nil]
  | cons first rest =>
    -- What is left behind the first element are those with another image.
    have later := eraseDups_map image (rest.filter fun other => !image other == image first)
    have finer : (rest.filter fun other => !other == first).eraseDups.filter
        (fun other => !image other == image first) =
        (rest.filter fun other => !image other == image first).eraseDups := by
      rw [← eraseDups_filter, List.filter_filter]
      congr 1
      refine List.filter_congr fun other _ => ?_
      by_cases same : other = first
      · simp [same]
      · simp [same]
    rw [List.map_cons, List.eraseDups_cons, List.filter_map, List.eraseDups_cons, List.map_cons,
      List.eraseDups_cons, List.filter_map]
    show _ :: ((rest.filter fun other => !image other == image first).map image).eraseDups =
      _ :: (((rest.filter fun other => !other == first).eraseDups.filter
        fun other => !image other == image first).map image).eraseDups
    rw [finer, later]
termination_by list.length
decreasing_by exact Nat.lt_succ_of_le (List.length_filter_le _ _)

/-- Lists with the same first ones in front of lists with the same first ones. -/
theorem eraseDups_append_congr {front back first second : List α}
    (left : front.eraseDups = back.eraseDups) (right : first.eraseDups = second.eraseDups) :
    (front ++ first).eraseDups = (back ++ second).eraseDups := by
  have member : ∀ item, item ∈ front ↔ item ∈ back := by
    intro item
    rw [← List.mem_eraseDups, left, List.mem_eraseDups]
  rw [List.eraseDups_append, List.eraseDups_append, left, List.removeAll, List.removeAll,
    eraseDups_filter, eraseDups_filter, right]
  congr 1
  refine List.filter_congr fun item _ => ?_
  simp [member item]

/-- One list for each of some items, in which there is nothing else. -/
theorem eraseDups_flatMap {items : List α} (nodup : items.Nodup) {lists : α → List α}
    (some : ∀ item ∈ items, lists item ≠ []) (only : ∀ item, ∀ other ∈ lists item, other = item) :
    (items.flatMap lists).eraseDups = items := by
  induction items with
  | nil => rfl
  | cons item rest ih =>
    obtain ⟨fresh, others⟩ := List.nodup_cons.mp nodup
    have here : (lists item).eraseDups = [item] := by
      obtain ⟨first, more, same⟩ := List.exists_cons_of_ne_nil (some item List.mem_cons_self)
      have all := only item
      rw [same] at all ⊢
      rw [List.eraseDups_cons, all first List.mem_cons_self]
      have none : more.filter (fun other => !other == item) = [] := by
        refine List.filter_eq_nil_iff.mpr fun other member => ?_
        simp [all other (List.mem_cons_of_mem _ member)]
      rw [none, List.eraseDups_nil]
    have away : (rest.flatMap lists).removeAll (lists item) = rest.flatMap lists := by
      refine List.filter_eq_self.mpr fun other member => ?_
      obtain ⟨origin, among, inside⟩ := List.mem_flatMap.mp member
      have absent : other ∉ lists item := by
        intro again
        rw [only item other again] at inside
        exact fresh (only origin item inside ▸ among)
      simp [absent]
    rw [List.flatMap_cons, List.eraseDups_append, here, away,
      ih others fun other member => some other (List.mem_cons_of_mem _ member)]
    rfl

end Firsts

/-! ### Sorted evaluations -/

/-- Evaluations taken key by key are the same evaluations. -/
theorem flatMap_entriesOf_perm {all : List TraceKey} (nodup : all.Nodup) {entries : List Evaluated}
    (complete : ∀ entry ∈ entries, entry.key ∈ all) :
    (all.flatMap (entriesOf entries)).Perm entries := by
  induction all generalizing entries with
  | nil =>
    have none : entries = [] := List.eq_nil_iff_forall_not_mem.mpr fun entry member =>
      List.not_mem_nil (complete entry member)
    rw [none]
    exact .nil
  | cons key rest ih =>
    obtain ⟨fresh, others⟩ := List.nodup_cons.mp nodup
    have left : (rest.flatMap
        (entriesOf (entries.filter fun entry => !(entry.key = key : Bool)))).Perm
        (entries.filter fun entry => !(entry.key = key : Bool)) := by
      refine ih others fun entry member => ?_
      obtain ⟨inside, away⟩ := List.mem_filter.mp member
      rcases List.mem_cons.mp (complete entry inside) with same | later
      · simp [same] at away
      · exact later
    have kept : rest.flatMap (entriesOf (entries.filter fun entry => !(entry.key = key : Bool))) =
        rest.flatMap (entriesOf entries) := by
      refine List.flatMap_congr fun other member => ?_
      rw [entriesOf, entriesOf, List.filter_filter]
      refine List.filter_congr fun entry _ => ?_
      by_cases same : entry.key = other
      · have apart : other ≠ key := fun again => fresh (again ▸ member)
        simp [same, apart]
      · simp [same]
    rw [List.flatMap_cons]
    rw [kept] at left
    exact (left.append_left _).trans (List.filter_append_perm _ entries)

/-- **Sorting keeps the evaluations.** -/
theorem sorted_perm (entries : List Evaluated) : (sorted entries).Perm entries :=
  flatMap_entriesOf_perm (nodup_keys entries) fun entry member => mem_keys.mpr ⟨entry, member, rfl⟩

/-- **Sorting keeps the order of the keys.** -/
theorem keys_sorted (entries : List Evaluated) :
    ((sorted entries).map Evaluated.key).eraseDups = keys entries := by
  rw [sorted, List.map_flatMap]
  refine eraseDups_flatMap (nodup_keys entries) (fun key member => ?_) fun key other inside => ?_
  · obtain ⟨entry, among, same⟩ := mem_keys.mp member
    have kept : entry ∈ entriesOf entries key := List.mem_filter.mpr ⟨among, decide_eq_true same⟩
    exact List.ne_nil_of_mem (List.mem_map_of_mem kept)
  · obtain ⟨entry, among, rfl⟩ := List.mem_map.mp inside
    exact of_decide_eq_true (List.mem_filter.mp among).2

/-- Evaluations at one place belong to one record. -/
theorem key_eq_of_site_eq {first second : Evaluated} (same : first.site = second.site) :
    first.key = second.key := by
  obtain ⟨includes, span, expression, kind, value⟩ := first
  obtain ⟨around, place, text, sort, other⟩ := second
  simp only [Evaluated.site, Prod.mk.injEq, TraceKey.mk.injEq] at same
  obtain ⟨rfl, rfl, rfl, rfl⟩ := same
  rfl

/-- Lists of which at most one is not empty. -/
theorem flatMap_eq_of_nodup {items : List TraceKey} (nodup : items.Nodup) {item : TraceKey}
    {lists : TraceKey → List Evaluated} (others : ∀ other, other ≠ item → lists other = [])
    (absent : item ∉ items → lists item = []) : items.flatMap lists = lists item := by
  induction items with
  | nil => exact (absent List.not_mem_nil).symm
  | cons first rest ih =>
    obtain ⟨fresh, nodup⟩ := List.nodup_cons.mp nodup
    rw [List.flatMap_cons]
    by_cases same : first = item
    · subst same
      have none : rest.flatMap lists = [] :=
        List.flatMap_eq_nil_iff.mpr fun other member =>
          others other fun again => fresh (again ▸ member)
      rw [none, List.append_nil]
    · rw [others first same, List.nil_append]
      refine ih nodup fun away => absent fun member => ?_
      rcases List.mem_cons.mp member with again | later
      · exact same again.symm
      · exact away later

/-- **Sorting keeps the order of the evaluations at a place.** -/
theorem filter_sorted (entries : List Evaluated) (site : List Span × TraceKey) :
    (sorted entries).filter (fun entry => entry.site = site) =
      entries.filter fun entry => entry.site = site := by
  by_cases some : ∃ entry ∈ entries, entry.site = site
  · obtain ⟨entry, member, rfl⟩ := some
    rw [sorted, List.filter_flatMap]
    have here : (entriesOf entries entry.key).filter (fun other => other.site = entry.site) =
        entries.filter fun other => other.site = entry.site := by
      rw [entriesOf, List.filter_filter]
      refine List.filter_congr fun other _ => ?_
      by_cases same : other.site = entry.site
      · simp [same, key_eq_of_site_eq same]
      · simp [same]
    rw [← here]
    refine flatMap_eq_of_nodup (nodup_keys entries)
      (fun key apart => List.filter_eq_nil_iff.mpr fun other inside same => apart ?_)
      fun absent => absurd (mem_keys.mpr ⟨entry, member, rfl⟩) absent
    rw [← of_decide_eq_true (List.mem_filter.mp inside).2]
    exact key_eq_of_site_eq (of_decide_eq_true same)
  · have none : ∀ entry ∈ entries, ¬ decide (entry.site = site) = true :=
      fun entry member same => some ⟨entry, member, of_decide_eq_true same⟩
    rw [List.filter_eq_nil_iff.mpr none, List.filter_eq_nil_iff.mpr fun entry member =>
      none entry ((sorted_perm entries).mem_iff.mp member)]

/-! ### Histories -/

/-- The key of an evaluation seen from outside of an include. -/
def TraceKey.below (span : Span) (key : TraceKey) : TraceKey := { key with span := span }

theorem key_below (span : Span) (entries : List Evaluated) :
    (entries.map (Evaluated.below span)).map Evaluated.key =
      (entries.map Evaluated.key).map (TraceKey.below span) := by
  rw [List.map_map, List.map_map]
  rfl

mutual

theorem TraceEvent.settled_perm (event : TraceEvent) : event.settled.Perm event.journal :=
  match event with
  | .evaluated _ _ _ _ => .refl _
  | .included _ events =>
    ((sorted_perm (settled events)).trans (PromptMarkup.settled_perm events)).map _

/-- **The evaluations that come into a trace are those of the journal.** -/
theorem settled_perm (events : List TraceEvent) : (settled events).Perm (journal events) :=
  match events with
  | [] => .nil
  | event :: rest => event.settled_perm.append (settled_perm rest)

end

theorem keys_below (span : Span) (entries : List Evaluated) :
    keys (entries.map (Evaluated.below span)) =
      ((keys entries).map (TraceKey.below span)).eraseDups := by
  rw [keys, key_below, eraseDups_map]
  rfl

theorem keys_append_congr {front back first second : List Evaluated} (left : keys front = keys back)
    (right : keys first = keys second) : keys (front ++ first) = keys (back ++ second) := by
  rw [keys, keys, List.map_append, List.map_append]
  exact eraseDups_append_congr left right

mutual

theorem TraceEvent.keys_settled (event : TraceEvent) : keys event.settled = keys event.journal :=
  match event with
  | .evaluated _ _ _ _ => rfl
  | .included span events => by
    have inside := PromptMarkup.keys_settled events
    rw [TraceEvent.settled, TraceEvent.journal, keys_below, keys_below, ← inside]
    exact congrArg (fun all => (all.map (TraceKey.below span)).eraseDups)
      (keys_sorted (settled events))

/-- **Their keys come in the order of the journal.** -/
theorem keys_settled (events : List TraceEvent) : keys (settled events) = keys (journal events) :=
  match events with
  | [] => rfl
  | event :: rest => keys_append_congr event.keys_settled (keys_settled rest)

end

theorem site_below_iff (span : Span) (entry : Evaluated) (site : List Span × TraceKey) :
    (entry.below span).site = site ↔
      site.1.head? = some span ∧ entry.site = (site.1.tail, site.2) := by
  obtain ⟨includes, key⟩ := site
  cases includes with
  | nil =>
    constructor
    · intro same
      cases congrArg Prod.fst same
    · rintro ⟨absurd, _⟩
      cases absurd
  | cons outermost rest =>
    simp only [Evaluated.site, Evaluated.below, Prod.mk.injEq, List.cons.injEq, List.head?_cons,
      Option.some.injEq, List.tail_cons]
    tauto

theorem filter_below (span : Span) (entries : List Evaluated) (site : List Span × TraceKey) :
    (entries.map (Evaluated.below span)).filter (fun entry => entry.site = site) =
      ((entries.filter fun entry => entry.site = (site.1.tail, site.2)).filter
        fun _ => site.1.head? = some span).map (Evaluated.below span) := by
  rw [List.filter_map, List.filter_filter]
  congr 1
  refine List.filter_congr fun entry _ => ?_
  rw [Bool.eq_iff_iff, Function.comp_apply, decide_eq_true_eq, site_below_iff, Bool.and_eq_true,
    decide_eq_true_eq, decide_eq_true_eq]

mutual

theorem TraceEvent.filter_settled (event : TraceEvent) (site : List Span × TraceKey) :
    event.settled.filter (fun entry => entry.site = site) =
      event.journal.filter fun entry => entry.site = site :=
  match event with
  | .evaluated _ _ _ _ => rfl
  | .included span events => by
    have inside := PromptMarkup.filter_settled events (site.1.tail, site.2)
    rw [TraceEvent.settled, TraceEvent.journal, filter_below, filter_below, filter_sorted, inside]

/-- **The evaluations at a place come in the order of the journal.** -/
theorem filter_settled (events : List TraceEvent) (site : List Span × TraceKey) :
    (settled events).filter (fun entry => entry.site = site) =
      (journal events).filter fun entry => entry.site = site :=
  match events with
  | [] => rfl
  | event :: rest => by
    rw [settled, journal, List.filter_append, List.filter_append, event.filter_settled site,
      filter_settled rest site]

end

/-! ### Records -/

/-- All evaluations of a record stand at the same place of the same file. -/
def StandsAlone (entries : List Evaluated) (key : TraceKey) : Prop :=
  ∀ first ∈ entriesOf entries key, ∀ second ∈ entriesOf entries key, first.site = second.site

instance (entries : List Evaluated) (key : TraceKey) : Decidable (StandsAlone entries key) :=
  inferInstanceAs (Decidable (∀ first ∈ entriesOf entries key, ∀ second ∈ entriesOf entries key,
    first.site = second.site))

/-- A record has the values that evaluations make up for its key, in their order if they all stand
at one place. -/
structure TraceRecord.Gathers (record : TraceRecord) (entries : List Evaluated) : Prop where
  values : record.values.Perm (recordOf entries record.key).values
  ordered : StandsAlone entries record.key → record = recordOf entries record.key

theorem entriesOf_standsAlone {entries others : List Evaluated} {entry : Evaluated}
    {key : TraceKey} (same : others.Perm entries) (member : entry ∈ entriesOf entries key)
    (alone : StandsAlone entries key) :
    entriesOf others key = others.filter fun other => other.site = entry.site := by
  refine List.filter_congr fun other among => ?_
  have inside := of_decide_eq_true (List.mem_filter.mp member).2
  rw [Bool.eq_iff_iff, decide_eq_true_eq, decide_eq_true_eq]
  constructor
  · intro belongs
    refine alone other (List.mem_filter.mpr ⟨same.mem_iff.mp among, ?_⟩) entry member
    exact decide_eq_true belongs
  · intro place
    rw [key_eq_of_site_eq place, inside]

/-- **The records of the sorted evaluations have the keys of the journal**, in the order of first
evaluations, and each keeps the evaluations of its key. -/
theorem grouped_settled (events : List TraceEvent) :
    (grouped (settled events)).map TraceRecord.key = keys (journal events) ∧
      ∀ record ∈ grouped (settled events), record.Gathers (journal events) := by
  have perm := settled_perm events
  constructor
  · rw [grouped, List.map_map, ← keys_settled events]
    exact List.map_id _
  · intro record member
    obtain ⟨key, _, rfl⟩ := List.mem_map.mp member
    refine ⟨(perm.filter _).map _, fun alone => ?_⟩
    show recordOf (settled events) key = recordOf (journal events) key
    have same : entriesOf (settled events) key = entriesOf (journal events) key := by
      cases some : entriesOf (journal events) key with
      | nil => exact List.perm_nil.mp (some ▸ perm.filter _)
      | cons entry rest =>
        have inside : entry ∈ entriesOf (journal events) key := some ▸ List.mem_cons_self
        rw [← some, entriesOf_standsAlone perm inside alone,
          entriesOf_standsAlone (.refl _) inside alone, filter_settled]
    rw [recordOf, recordOf, same]

end PromptMarkup
