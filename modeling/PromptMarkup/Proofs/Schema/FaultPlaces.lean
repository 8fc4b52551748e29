/-
**Where a value is at fault.**

What a value violates of a schema is violated by a part of it, to which a pointer leads: the part
that a schema within the schema is about, or a property that none may be about. So the pointer of a
violation tells which part it is, but for the root, which is shown as the pointer to the property
without a name.

* `Reaches`: the schemas that are about the parts of a value;
* `Breaks`: what a value violates of one schema object, keyword by keyword;
* `Fault`, `IsFault`: a constraint and the names that lead to the part that violates it;
* `Locates`: violations that are faults wherever the value stands, with one lemma for each way in which
  violations are put together;
* `locates_violations`: all violations of a value are faults, by recursion on the schema;
* `validate_located`: what the pointers of violations tell.
-/

import PromptMarkup.Proofs.Schema.Acceptance
import PromptMarkup.Proofs.Schema.Pointers
import PromptMarkup.Proofs.Value.Fields

namespace PromptMarkup

/-! ### Objects without repeated names -/

namespace Json

mutual

/-- No object within a value has two members of one name. -/
def KeysApart : Json → Prop
  | .array items => ItemsApart items
  | .object members => (Fields.names members).Nodup ∧ MembersApart members
  | _ => True

/-- No object within some items has two members of one name. -/
def ItemsApart : List Json → Prop
  | [] => True
  | item :: rest => item.KeysApart ∧ ItemsApart rest

/-- No object within some members has two members of one name. -/
def MembersApart : List (String × Json) → Prop
  | [] => True
  | (_, member) :: rest => member.KeysApart ∧ MembersApart rest

end

theorem ItemsApart.item {items : List Json} (apart : ItemsApart items) {index : Nat} {item : Json}
    (here : items[index]? = some item) : item.KeysApart := by
  induction items generalizing index with
  | nil => cases here
  | cons first rest ih =>
    cases index with
    | zero => exact Option.some.inj here ▸ apart.1
    | succ index => exact ih apart.2 here

theorem MembersApart.member {members : List (String × Json)} (apart : MembersApart members)
    {member : String × Json} (inside : member ∈ members) : member.2.KeysApart := by
  induction members with
  | nil => cases inside
  | cons first rest ih =>
    rcases List.mem_cons.mp inside with rfl | later
    · exact apart.1
    · exact ih apart.2 later

end Json

namespace Schema

theorem shownPointer_pointer (path name : String) :
    shownPointer (pointer path name) = pointer path name := by
  refine if_neg fun empty => ?_
  have chars := congrArg String.toList (String.isEmpty_iff.mp empty)
  rw [toList_pointer, String.toList_empty] at chars
  exact List.append_ne_nil_of_right_ne_nil _ (List.cons_ne_nil _ _) chars

/-! ### The schema of a part -/

/-- A schema that some names lead to is about the part of a value that they lead to. -/
inductive Reaches : Json → Json → List String → Json → Json → Prop
  | here (schema value : Json) : Reaches schema value [] schema value
  | item {fields : List (String × Json)} {items : List Json} {schema item : Json} {index : Nat}
      {position : List String} {inner part : Json} (set : fields.lookup "items" = some schema)
      (inside : items[index]? = some item) (further : Reaches schema item position inner part) :
      Reaches (.object fields) (.array items) (toString index :: position) inner part
  | property {fields members : List (String × Json)} {name : String} {schema member : Json}
      {position : List String} {inner part : Json}
      (set : (propertySchemas fields).lookup name = some schema)
      (inside : (name, member) ∈ members) (further : Reaches schema member position inner part) :
      Reaches (.object fields) (.object members) (name :: position) inner part
  | additional {fields members rest : List (String × Json)} {name : String} {member : Json}
      {position : List String} {inner part : Json}
      (unset : (propertySchemas fields).lookup name = none)
      (others : fields.lookup "additionalProperties" = some (.object rest))
      (inside : (name, member) ∈ members)
      (further : Reaches (.object rest) member position inner part) :
      Reaches (.object fields) (.object members) (name :: position) inner part

/-- A property that a schema object has no schema for, and that it does not allow. -/
def Forbids (fields : List (String × Json)) (name : String) : Prop :=
  (propertySchemas fields).lookup name = none ∧
    fields.lookup "additionalProperties" = some (.bool false)

/-! ### What one schema is violated by -/

/-- The bound that a keyword sets for numbers is violated. -/
def BreaksValue (fields : List (String × Json)) (value : Json) (lower : Bool) (bound : Float) :
    Prop :=
  ∃ setting ∈ fields.lookup (Measure.value.key lower), setting.number? = some bound ∧
    ∃ number ∈ value.number?, if lower then number < bound else bound < number

/-- The bound that a keyword sets for a number of parts is violated. -/
def BreaksCount (fields : List (String × Json)) (value : Json) (measure : Measure) (lower : Bool)
    (bound : Nat) : Prop :=
  ∃ setting ∈ fields.lookup (measure.key lower), setting.natural? = some bound ∧
    ∃ count ∈ measure.count? value, if lower then count < bound else bound < count

/-- A value violates a constraint of the keywords of a schema object, apart from those about its
parts. -/
def BreaksKeyword (fields : List (String × Json)) (value : Json) : Constraint → Prop
  | .nothingAllowed => False
  | .type names found => found = typeOf value ∧ ∃ declared ∈ fields.lookup "type",
      allowedTypes declared = names ∧ ¬ TypeAllows declared value
  | .enum found => found = value ∧ ∃ options, fields.lookup "enum" = some (.array options) ∧
      ∀ option ∈ options, option.same value = false
  | .const expected found => found = value ∧ fields.lookup "const" = some expected ∧
      expected.same value = false
  | .minimum bound found => found = value ∧ BreaksValue fields value true bound
  | .maximum bound found => found = value ∧ BreaksValue fields value false bound
  | .minLength bound => BreaksCount fields value .length true bound
  | .maxLength bound => BreaksCount fields value .length false bound
  | .anyOf => ∃ options, fields.lookup "anyOf" = some (.array options) ∧
      ∀ option ∈ options, ¬ Accepts option value ""
  | .minItems bound => BreaksCount fields value .items true bound
  | .maxItems bound => BreaksCount fields value .items false bound
  | .required name => ∃ names, fields.lookup "required" = some (.array names) ∧
      .string name ∈ names ∧ ∃ members, value = .object members ∧ members.lookup name = none
  | .unexpected _ => False

/-- A value violates a constraint of a schema itself. -/
def Breaks (schema value : Json) (constraint : Constraint) : Prop :=
  (schema = .bool false ∧ constraint = .nothingAllowed) ∨
    ∃ fields, schema = .object fields ∧ BreaksKeyword fields value constraint

section Keywords

variable {fields : List (String × Json)} {value : Json} {constraint : Constraint}

theorem mem_violated {condition : Bool} {other : Constraint} :
    constraint ∈ violated condition other ↔ condition = true ∧ constraint = other := by
  cases condition <;> simp [violated]

theorem breaks_of_type (violation : typeViolation? fields value = some constraint) :
    BreaksKeyword fields value constraint := by
  have some : typeViolation? fields value ≠ none := by simp [violation]
  rw [Ne, typeViolation?_eq_none, not_forall₂] at some
  obtain ⟨declared, found, kept⟩ := some
  have named : typeViolation? fields value =
      .some (.type (allowedTypes declared) (typeOf value)) := by
    unfold typeViolation?
    rw [found]
    exact if_neg fun allowed => kept fun nonempty => by simpa [nonempty] using allowed
  rw [named] at violation
  obtain rfl := Option.some.inj violation
  exact ⟨rfl, declared, found, rfl, kept⟩

theorem breaks_of_value (member : constraint ∈ valueViolations fields value) :
    BreaksKeyword fields value constraint := by
  rcases List.mem_append.mp member with member | member
  · split at member
    next options found =>
      obtain ⟨none, rfl⟩ := mem_violated.mp member
      exact ⟨rfl, options, found, by simpa using none⟩
    next => cases member
  · split at member
    next expected found =>
      obtain ⟨different, rfl⟩ := mem_violated.mp member
      exact ⟨rfl, found, by simpa using different⟩
    next => cases member

theorem breaks_of_number (member : constraint ∈ numberViolations fields value) :
    BreaksKeyword fields value constraint := by
  unfold numberViolations at member
  split at member
  next => cases member
  next number given =>
    rcases List.mem_append.mp member with member | member
    · split at member
      next bound set =>
        obtain ⟨below, rfl⟩ := mem_violated.mp member
        obtain ⟨setting, found, bound⟩ := Option.bind_eq_some_iff.mp set
        exact ⟨rfl, setting, found, bound, number, given, of_decide_eq_true below⟩
      next => cases member
    · split at member
      next bound set =>
        obtain ⟨above, rfl⟩ := mem_violated.mp member
        obtain ⟨setting, found, bound⟩ := Option.bind_eq_some_iff.mp set
        exact ⟨rfl, setting, found, bound, number, given, of_decide_eq_true above⟩
      next => cases member

theorem breaks_of_count {measure : Measure} {count : Nat} {tooFew tooMany : Nat → Constraint}
    (counted : measure.count? value = some count)
    (member : constraint ∈ countViolations fields (measure.key true) (measure.key false) tooFew
      tooMany count) :
    (∃ bound, constraint = tooFew bound ∧ BreaksCount fields value measure true bound) ∨
      ∃ bound, constraint = tooMany bound ∧ BreaksCount fields value measure false bound := by
  rcases List.mem_append.mp member with member | member
  · split at member
    next bound set =>
      obtain ⟨few, rfl⟩ := mem_violated.mp member
      obtain ⟨setting, found, given⟩ := Option.bind_eq_some_iff.mp set
      exact .inl ⟨bound, rfl, setting, found, given, count, counted, of_decide_eq_true few⟩
    next => cases member
  · split at member
    next bound set =>
      obtain ⟨many, rfl⟩ := mem_violated.mp member
      obtain ⟨setting, found, given⟩ := Option.bind_eq_some_iff.mp set
      exact .inr ⟨bound, rfl, setting, found, given, count, counted, of_decide_eq_true many⟩
    next => cases member

theorem breaks_of_length (member : constraint ∈ lengthViolations fields value) :
    BreaksKeyword fields value constraint := by
  cases value with
  | string text =>
    have counted : Measure.length.count? (.string text) = some text.length := rfl
    rcases breaks_of_count counted member with ⟨bound, rfl, breaks⟩ |
      ⟨bound, rfl, breaks⟩ <;> exact breaks
  | _ => cases member

theorem breaks_of_itemCount (member : constraint ∈ itemCountViolations fields value) :
    BreaksKeyword fields value constraint := by
  cases value with
  | array items =>
    have counted : Measure.items.count? (.array items) = some items.length := rfl
    rcases breaks_of_count counted member with ⟨bound, rfl, breaks⟩ |
      ⟨bound, rfl, breaks⟩ <;> exact breaks
  | _ => cases member

theorem breaks_of_option
    (member : constraint ∈ optionViolations (validatorsAt "anyOf" fields) value "") :
    BreaksKeyword fields value constraint := by
  rw [validatorsAt_eq] at member
  cases found : fields.lookup "anyOf" with
  | none => simp [found, optionViolations] at member
  | some setting =>
    cases setting with
    | array options =>
      simp only [found, Option.bind_some, Json.array?, Option.map_some, optionViolations,
        mem_violated] at member
      obtain ⟨none, rfl⟩ := member
      have rejected : ∀ option ∈ options, violations option value "" ≠ [] := by simpa using none
      exact ⟨options, found, rejected⟩
    | _ => simp [found, optionViolations, Json.array?] at member

theorem breaks_of_required (member : constraint ∈ requiredViolations fields value) :
    BreaksKeyword fields value constraint := by
  unfold requiredViolations at member
  split at member
  next members names found =>
    obtain ⟨name, missing, rfl⟩ := List.mem_map.mp member
    obtain ⟨listed, absent⟩ := List.mem_filter.mp missing
    obtain ⟨setting, isName, text⟩ := List.mem_filterMap.mp listed
    rw [string?_eq_some_iff.mp text] at isName
    exact ⟨names, found, isName, members, rfl, by simpa using absent⟩
  next => cases member

end Keywords

/-! ### Faults -/

/-- A constraint, and the names that lead to the part of a value that violates it. -/
structure Fault where
  position : List String
  constraint : Constraint

/-- The violation that a fault is, for a value that stands at a path. -/
def Fault.violation (fault : Fault) (path : String) : Violation :=
  ⟨shownPointer (fault.position.foldl pointer path), fault.constraint⟩

/-- A constraint is violated by a part of a value: it is one of the schema that is about this part,
or the part is a property that the schema of its object does not allow. -/
def IsFault (schema value : Json) (fault : Fault) (part : Json) : Prop :=
  (∃ inner, Reaches schema value fault.position inner part ∧ Breaks inner part fault.constraint) ∨
    ∃ place name fields members, fault.position = place ++ [name] ∧
      fault.constraint = .unexpected name ∧
      Reaches schema value place (.object fields) (.object members) ∧ (name, part) ∈ members ∧
      Forbids fields name

/-- What a validator finds, it finds wherever the value stands, and each violation is a fault. -/
def Locates (validator : String → List Violation) (holds : Fault → Prop) : Prop :=
  ∃ faults : List Fault, (∀ fault ∈ faults, holds fault) ∧
    ∀ path, validator path = faults.map fun fault => fault.violation path

section Locates

variable {validator other : String → List Violation} {holds : Fault → Prop}

theorem locates_nothing : Locates (fun _ => []) holds := ⟨[], nofun, fun _ => rfl⟩

theorem Locates.append (first : Locates validator holds) (second : Locates other holds) :
    Locates (fun path => validator path ++ other path) holds := by
  obtain ⟨faults, sound, found⟩ := first
  obtain ⟨more, others, later⟩ := second
  refine ⟨faults ++ more, fun fault member => ?_, fun path => ?_⟩
  · exact (List.mem_append.mp member).elim (sound fault) (others fault)
  · show validator path ++ other path = _
    rw [found, later, List.map_append]

theorem locates_flatMap {α : Type} {list : List α} {each : α → String → List Violation}
    (locates : ∀ item ∈ list, Locates (each item) holds) :
    Locates (fun path => list.flatMap fun item => each item path) holds := by
  induction list with
  | nil => exact locates_nothing
  | cons first rest ih =>
    exact (locates first List.mem_cons_self).append
      (ih fun item later => locates item (List.mem_cons_of_mem _ later))

/-- Constraints that the whole value violates. -/
theorem locates_here {constraints : List Constraint}
    (sound : ∀ constraint ∈ constraints, holds ⟨[], constraint⟩) :
    Locates (fun path => constraints.map fun constraint => ⟨shownPointer path, constraint⟩)
      holds := by
  refine ⟨constraints.map fun constraint => ⟨[], constraint⟩, ?_, fun path => ?_⟩
  · exact List.forall_mem_map.mpr sound
  · rw [List.map_map]
    rfl

/-- What a part of the value violates. -/
theorem Locates.below {inside : Fault → Prop} (name : String) (locates : Locates validator inside)
    (lifts : ∀ fault, inside fault → holds ⟨name :: fault.position, fault.constraint⟩) :
    Locates (fun path => validator (pointer path name)) holds := by
  obtain ⟨faults, sound, found⟩ := locates
  refine ⟨faults.map fun fault => ⟨name :: fault.position, fault.constraint⟩, ?_, fun path => ?_⟩
  · exact List.forall_mem_map.mpr fun fault member => lifts fault (sound fault member)
  · show validator (pointer path name) = _
    rw [found, List.map_map]
    rfl

/-- Whether anything is violated does not depend on where the value stands. -/
theorem Locates.isEmpty_iff (locates : Locates validator holds) (path other : String) :
    (validator path).isEmpty = (validator other).isEmpty := by
  obtain ⟨faults, -, found⟩ := locates
  rw [found, found]
  cases faults <;> rfl

end Locates

/-- The faults of a value. -/
def IsFaulty (schema value : Json) (fault : Fault) : Prop := ∃ part, IsFault schema value fault part

section Object

variable {fields : List (String × Json)} {value : Json}

theorem isFaulty_here {constraint : Constraint} (breaks : BreaksKeyword fields value constraint) :
    IsFaulty (.object fields) value ⟨[], constraint⟩ :=
  ⟨value, .inl ⟨.object fields, .here _ _, .inr ⟨fields, rfl, breaks⟩⟩⟩

/-- A fault of a part is a fault of the value. -/
theorem IsFaulty.lift {schema whole part : Json} {name : String} {fault : Fault}
    (further : ∀ {position inner found}, Reaches schema part position inner found →
      Reaches (.object fields) whole (name :: position) inner found)
    (faulty : IsFaulty schema part fault) :
    IsFaulty (.object fields) whole ⟨name :: fault.position, fault.constraint⟩ := by
  obtain ⟨found, ⟨inner, reaches, breaks⟩ | ⟨place, last, inner, members, same, rest⟩⟩ := faulty
  · exact ⟨found, .inl ⟨inner, further reaches, breaks⟩⟩
  · obtain ⟨unexpected, reaches, inside, forbids⟩ := rest
    refine ⟨found, .inr ⟨name :: place, last, inner, members, ?_, unexpected, further reaches,
      inside, forbids⟩⟩
    rw [same]
    rfl

theorem locates_items
    (items : ∀ schema ∈ fields.lookup "items", ∀ item, Locates (violations schema item)
      (IsFaulty schema item)) :
    Locates (itemViolations (validatorAt "items" fields) value) (IsFaulty (.object fields) value) := by
  rw [validatorAt_eq]
  cases set : fields.lookup "items" with
  | none => exact locates_nothing
  | some schema =>
    cases value with
    | array parts =>
      refine locates_flatMap fun part member => ?_
      obtain ⟨item, index⟩ := part
      have inside : parts[index]? = some item := List.mem_zipIdx_iff_getElem?.mp member
      refine (items schema set item).below (toString index) fun fault faulty => ?_
      exact faulty.lift fun further => .item set inside further
    | _ => exact locates_nothing

theorem locates_additional {members : List (String × Json)} {name : String} {member : Json}
    (unset : (propertySchemas fields).lookup name = none) (inside : (name, member) ∈ members)
    (rest : ∀ schema ∈ fields.lookup "additionalProperties", ∀ member,
      Locates (violations schema member) (IsFaulty schema member)) :
    Locates (fun path => additionalViolations (fields.lookup "additionalProperties")
      ((fields.lookup "additionalProperties").map violations) name member (pointer path name))
      (IsFaulty (.object fields) (.object members)) := by
  cases others : fields.lookup "additionalProperties" with
  | none => exact locates_nothing
  | some setting =>
    cases setting with
    | object keywords =>
      refine (rest _ others member).below name fun fault faulty => ?_
      exact faulty.lift fun further => .additional unset others inside further
    | bool allowed =>
      cases allowed with
      | true => exact locates_nothing
      | false =>
        refine ⟨[⟨[name], .unexpected name⟩], fun fault only => ?_, fun path => ?_⟩
        · obtain rfl := List.mem_singleton.mp only
          exact ⟨member, .inr ⟨[], name, fields, members, rfl, rfl, .here _ _, inside, unset,
            others⟩⟩
        · show [(⟨pointer path name, _⟩ : Violation)] = [⟨shownPointer (pointer path name), _⟩]
          rw [shownPointer_pointer]
    | _ => exact locates_nothing

theorem locates_properties
    (named : ∀ name, ∀ schema ∈ (propertySchemas fields).lookup name, ∀ member,
      Locates (violations schema member) (IsFaulty schema member))
    (rest : ∀ schema ∈ fields.lookup "additionalProperties", ∀ member,
      Locates (violations schema member) (IsFaulty schema member)) :
    Locates (propertyViolations (namedValidators fields) (fields.lookup "additionalProperties")
      (validatorAt "additionalProperties" fields) value) (IsFaulty (.object fields) value) := by
  rw [namedValidators_eq, validatorAt_eq]
  cases value with
  | object members =>
    refine locates_flatMap fun part inside => ?_
    obtain ⟨name, member⟩ := part
    simp only [lookup_map_snd]
    cases set : (propertySchemas fields).lookup name with
    | none => exact locates_additional set inside rest
    | some schema =>
      refine (named name schema set member).below name fun fault faulty => ?_
      exact faulty.lift fun further => .property set inside further
  | _ => exact locates_nothing

theorem optionViolations_anywhere
    (options : ∀ listed, fields.lookup "anyOf" = some (.array listed) → ∀ option ∈ listed,
      Locates (violations option value) (IsFaulty option value)) (path : String) :
    optionViolations (validatorsAt "anyOf" fields) value path =
      optionViolations (validatorsAt "anyOf" fields) value "" := by
  rw [validatorsAt_eq]
  cases set : fields.lookup "anyOf" with
  | none => rfl
  | some setting =>
    cases setting with
    | array listed =>
      have same : (listed.any fun option => (violations option value path).isEmpty) =
          listed.any fun option => (violations option value "").isEmpty := by
        rw [Bool.eq_iff_iff, List.any_eq_true, List.any_eq_true]
        refine exists_congr fun option => and_congr_right fun member => ?_
        rw [(options listed set option member).isEmpty_iff path ""]
      show violated (!(listed.map violations).any _) .anyOf =
        violated (!(listed.map violations).any _) .anyOf
      rw [List.any_map, List.any_map]
      exact congrArg (fun any => violated (!any) .anyOf) same
    | _ => rfl

theorem sizeOf_lt_of_lookup {key : String} {schema : Json}
    (set : fields.lookup key = some schema) : sizeOf schema < sizeOf (Json.object fields) := by
  obtain ⟨front, back, rfl, -⟩ := List.lookup_eq_some_iff.mp set
  have inside := List.sizeOf_lt_of_mem (show (key, schema) ∈ front ++ (key, schema) :: back by simp)
  simp only [Prod.mk.sizeOf_spec, Json.object.sizeOf_spec] at inside ⊢
  omega

theorem sizeOf_lt_of_property {name : String} {schema : Json}
    (set : (propertySchemas fields).lookup name = some schema) :
    sizeOf schema < sizeOf (Json.object fields) := by
  obtain ⟨properties, found, listed⟩ : ∃ properties,
      fields.lookup "properties" = some (.object properties) ∧
        properties.lookup name = some schema := by
    unfold propertySchemas at set
    cases found : fields.lookup "properties" with
    | none => simp [found] at set
    | some setting =>
      cases setting with
      | object properties => exact ⟨properties, rfl, by simpa [found, Json.object?] using set⟩
      | _ => simp [found, Json.object?] at set
  exact Nat.lt_trans (sizeOf_lt_of_lookup listed) (sizeOf_lt_of_lookup found)

theorem sizeOf_lt_of_option {listed : List Json} {option : Json}
    (set : fields.lookup "anyOf" = some (.array listed)) (member : option ∈ listed) :
    sizeOf option < sizeOf (Json.object fields) := by
  have inside := List.sizeOf_lt_of_mem member
  have outside := sizeOf_lt_of_lookup set
  simp only [Json.array.sizeOf_spec] at outside
  omega

theorem violations_of_type {constraint : Constraint}
    (type : typeViolation? fields value = some constraint) (path : String) :
    violations (.object fields) value path = [⟨shownPointer path, constraint⟩] := by
  rw [violations]
  simp only [type]

/-- The violations of a value of the right type, group by group. -/
theorem violations_of_typed (type : typeViolation? fields value = none) (path : String) :
    violations (.object fields) value path =
      (valueViolations fields value ++ numberViolations fields value
          ++ lengthViolations fields value
          ++ optionViolations (validatorsAt "anyOf" fields) value path
          ++ itemCountViolations fields value).map
            (fun constraint => (⟨shownPointer path, constraint⟩ : Violation))
        ++ itemViolations (validatorAt "items" fields) value path
        ++ (requiredViolations fields value).map
            (fun constraint => (⟨shownPointer path, constraint⟩ : Violation))
        ++ propertyViolations (namedValidators fields) (fields.lookup "additionalProperties")
          (validatorAt "additionalProperties" fields) value path := by
  rw [violations]
  simp only [type]

theorem locates_object
    (smaller : ∀ schema, sizeOf schema < sizeOf (Json.object fields) → ∀ value,
      Locates (violations schema value) (IsFaulty schema value)) :
    Locates (violations (.object fields) value) (IsFaulty (.object fields) value) := by
  have items : ∀ schema ∈ fields.lookup "items", ∀ item,
      Locates (violations schema item) (IsFaulty schema item) :=
    fun schema set => smaller schema (sizeOf_lt_of_lookup set)
  have rest : ∀ schema ∈ fields.lookup "additionalProperties", ∀ member,
      Locates (violations schema member) (IsFaulty schema member) :=
    fun schema set => smaller schema (sizeOf_lt_of_lookup set)
  have named : ∀ name, ∀ schema ∈ (propertySchemas fields).lookup name, ∀ member,
      Locates (violations schema member) (IsFaulty schema member) :=
    fun name schema set => smaller schema (sizeOf_lt_of_property set)
  have options : ∀ listed, fields.lookup "anyOf" = some (.array listed) → ∀ option ∈ listed,
      Locates (violations option value) (IsFaulty option value) :=
    fun listed set option member => smaller option (sizeOf_lt_of_option set member) value
  have here {constraints : List Constraint}
      (breaks : ∀ constraint ∈ constraints, BreaksKeyword fields value constraint) :=
    locates_here fun constraint member => isFaulty_here (breaks constraint member)
  cases type : typeViolation? fields value with
  | some constraint =>
    have alone : violations (.object fields) value = fun path => [constraint].map
        (fun constraint => (⟨shownPointer path, constraint⟩ : Violation)) :=
      funext fun path => violations_of_type type path
    rw [alone]
    refine @here [constraint] fun other only => ?_
    exact List.mem_singleton.mp only ▸ breaks_of_type type
  | none =>
    have parts : violations (.object fields) value = fun path =>
        (valueViolations fields value ++ numberViolations fields value
            ++ lengthViolations fields value
            ++ optionViolations (validatorsAt "anyOf" fields) value ""
            ++ itemCountViolations fields value).map
              (fun constraint => (⟨shownPointer path, constraint⟩ : Violation))
          ++ itemViolations (validatorAt "items" fields) value path
          ++ (requiredViolations fields value).map
              (fun constraint => (⟨shownPointer path, constraint⟩ : Violation))
          ++ propertyViolations (namedValidators fields) (fields.lookup "additionalProperties")
            (validatorAt "additionalProperties" fields) value path :=
      funext fun path => optionViolations_anywhere options path ▸ violations_of_typed type path
    rw [parts]
    refine (((here fun constraint member => ?_).append (locates_items items)).append
      (here fun _ => breaks_of_required)).append (locates_properties named rest)
    simp only [List.mem_append] at member
    obtain (((value | number) | length) | option) | count := member
    · exact breaks_of_value value
    · exact breaks_of_number number
    · exact breaks_of_length length
    · exact breaks_of_option option
    · exact breaks_of_itemCount count

/-- **All violations of a value are faults**, wherever it stands. -/
theorem locates_violations : ∀ schema value : Json,
    Locates (violations schema value) (IsFaulty schema value)
  | .object fields, value => locates_object fun schema smaller value =>
      locates_violations schema value
  | .bool false, value => by
    refine @locates_here _ [.nothingAllowed] fun constraint only => ?_
    exact ⟨value, .inl ⟨.bool false, .here _ _, .inl ⟨rfl, List.mem_singleton.mp only⟩⟩⟩
  | .bool true, _ => locates_nothing
  | .null, _ => locates_nothing
  | .integer _, _ => locates_nothing
  | .float _, _ => locates_nothing
  | .string _, _ => locates_nothing
  | .array _, _ => locates_nothing
termination_by schema => schema
decreasing_by exact smaller

end Object

/-! ### Parts -/

theorem Reaches.part? {schema value inner part : Json} {position : List String}
    (reaches : Reaches schema value position inner part) (apart : value.KeysApart) :
    value.part? position = some part := by
  induction reaches with
  | here => rfl
  | item set inside _ ih => exact Json.part?_cons (Json.child?_item inside) (ih (apart.item inside))
  | property set inside _ ih =>
    exact Json.part?_cons (Fields.lookup_of_mem apart.1 inside) (ih (apart.2.member inside))
  | additional unset others inside _ ih =>
    exact Json.part?_cons (Fields.lookup_of_mem apart.1 inside) (ih (apart.2.member inside))

theorem Reaches.keysApart {schema value inner part : Json} {position : List String}
    (reaches : Reaches schema value position inner part) (apart : value.KeysApart) :
    part.KeysApart := by
  induction reaches with
  | here => exact apart
  | item set inside _ ih => exact ih (apart.item inside)
  | property set inside _ ih => exact ih (apart.2.member inside)
  | additional unset others inside _ ih => exact ih (apart.2.member inside)

/-- **A fault leads to the part that violates it.** -/
theorem IsFault.part? {schema value part : Json} {fault : Fault} (apart : value.KeysApart)
    (faulty : IsFault schema value fault part) : value.part? fault.position = some part := by
  obtain ⟨inner, reaches, -⟩ | ⟨place, name, fields, members, same, -, reaches, inside, -⟩ := faulty
  · exact reaches.part? apart
  · have members := reaches.keysApart apart
    rw [same]
    exact Json.part?_concat (reaches.part? apart) (Fields.lookup_of_mem members.1 inside)

/-! ### What pointers tell -/

/-- **The pointers of violations lead to the parts at fault.** Every violation is that of a fault:
some part of the value violates the constraint, or is a property that is not allowed. Read as a
pointer, with a slash for the whole value, the path leads to that part, unless it is the property of
the whole value that has no name; and faults of different parts have different paths, unless these
are the whole value and that property. -/
theorem validate_located {value : Json} (apart : value.KeysApart) (document : SchemaDocument) :
    ∃ faults : List Fault,
      document.validate value = faults.map (fun fault => fault.violation "") ∧
      (∀ fault ∈ faults, ∃ part, IsFault document.json value fault part ∧
        value.part? fault.position = some part ∧
        (fault.position ≠ [""] →
          (shownTokens? (fault.violation "").path).bind value.part? = some part)) ∧
      ∀ fault ∈ faults, ∀ other ∈ faults, fault.position ≠ other.position →
        (fault.violation "").path = (other.violation "").path →
        fault.position = [] ∧ other.position = [""] ∨ fault.position = [""] ∧ other.position = [] := by
  obtain ⟨faults, sound, found⟩ := locates_violations document.json value
  refine ⟨faults, found "", fun fault member => ?_, fun fault _ other _ different same => ?_⟩
  · obtain ⟨part, faulty⟩ := sound fault member
    refine ⟨part, faulty, faulty.part? apart, fun named => ?_⟩
    have read : shownTokens? (fault.violation "").path = some fault.position :=
      shownTokens_spell named
    rw [read, Option.bind_some]
    exact faulty.part? apart
  · exact shown_spell_inj different same

/-- An item of the wrong type under a property. -/
theorem validate_located_item :
    ∃ (value : Json) (document : SchemaDocument), value.KeysApart ∧
      value = .object [("tags", .array [.string "a", .integer 1])] ∧
      document = ⟨.object [("properties", .object [("tags", .object [("items",
        .object [("type", .string "string")])])])]⟩ ∧
      ∃ faults : List Fault,
        document.validate value = faults.map (fun fault => fault.violation "") ∧
        (∀ fault ∈ faults, ∃ part, IsFault document.json value fault part ∧
          value.part? fault.position = some part ∧
          (fault.position ≠ [""] →
            (shownTokens? (fault.violation "").path).bind value.part? = some part)) ∧
        ∀ fault ∈ faults, ∀ other ∈ faults, fault.position ≠ other.position →
          (fault.violation "").path = (other.violation "").path →
          fault.position = [] ∧ other.position = [""] ∨
            fault.position = [""] ∧ other.position = [] := by
  have apart : (Json.object [("tags", .array [.string "a", .integer 1])]).KeysApart :=
    ⟨by decide, ⟨trivial, trivial, trivial⟩, trivial⟩
  exact ⟨_, _, apart, rfl, rfl, validate_located apart _⟩

/-- A property that is missing, and one without a name that has the wrong type. -/
theorem validate_sharedPath :
    ∃ (document : SchemaDocument) (value : Json) (first second : Violation),
      SchemaDocument.ofJson (.object [
        ("properties", .object [("", .object [("type", .string "string")])]),
        ("required", .array [.string "x"])]) = .ok document ∧
      value = .object [("", .integer 1)] ∧ document.validate value = [first, second] ∧
      IsFault document.json value ⟨[], first.constraint⟩ value ∧
      IsFault document.json value ⟨[""], second.constraint⟩ (.integer 1) ∧
      value ≠ .integer 1 ∧ first.path = second.path := by
  refine ⟨_, _, ⟨"/", .required "x"⟩, ⟨"/", .type ["string"] "integer"⟩, rfl, rfl, rfl, ?_, ?_,
    nofun, rfl⟩
  · refine .inl ⟨_, .here _ _, .inr ⟨_, rfl, [.string "x"], rfl, ?_, _, rfl, rfl⟩⟩
    exact List.mem_singleton_self _
  · have reaches := Reaches.here (.object [("type", .string "string")]) (.integer 1)
    refine .inl ⟨_, .property rfl (List.mem_singleton_self _) reaches, .inr ⟨_, rfl, rfl, _, rfl,
      rfl, fun allows => ?_⟩⟩
    obtain ⟨name, listed, type⟩ := allows (List.cons_ne_nil _ _)
    obtain rfl := List.mem_singleton.mp listed
    cases type

end Schema

end PromptMarkup
