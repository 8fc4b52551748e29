/-
**What a schema allows, keyword by keyword.**

A value violates nothing of a schema object exactly when it meets each keyword by itself. Only the
settings of the keywords count, neither their order nor any other field.

* `Accepts`: a value violates nothing of a schema;
* `Measure`: what a bound counts, and the keywords of the bounds;
* `Keyword.Asks`, `Meets`: what a keyword of a schema object asks of a value, and all of them;
* `accepts_object_iff`: the keywords are all that a schema object asks;
* `meets_congr`: the same settings ask the same;
* `meets_iff_apart`: a keyword asks for itself, whatever the others ask.
-/

import PromptMarkup.Schema.Namespace
import PromptMarkup.Schema.Validation

namespace PromptMarkup

/-! ### Fields without a key -/

namespace Fields

variable {α : Type}

/-- The fields without those of a name. -/
def erase (key : String) (fields : List (String × α)) : List (String × α) :=
  fields.filter fun field => field.1 ≠ key

theorem lookup_erase_self (key : String) (fields : List (String × α)) :
    (erase key fields).lookup key = none := by
  induction fields with
  | nil => rfl
  | cons field rest ih =>
    obtain ⟨name, value⟩ := field
    by_cases same : name = key
    · simpa [erase, same] using ih
    · simpa [erase, same, List.lookup_cons, beq_false_of_ne (Ne.symm same)] using ih

theorem lookup_erase_of_ne {key other : String} (different : other ≠ key)
    (fields : List (String × α)) : (erase key fields).lookup other = fields.lookup other := by
  induction fields with
  | nil => rfl
  | cons field rest ih =>
    obtain ⟨name, value⟩ := field
    by_cases same : name = key
    · subst same
      simpa [erase, List.lookup_cons, beq_false_of_ne different] using ih
    · by_cases here : other = name
      · simp [erase, same, here]
      · simpa [erase, same, List.lookup_cons, beq_false_of_ne here] using ih

/-- The order in which two fields are set does not count. -/
theorem lookup_insert_comm {key other : String} (different : key ≠ other) (value second : α)
    (fields : List (String × α)) (name : String) :
    (insert key value (insert other second fields)).lookup name =
      (insert other second (insert key value fields)).lookup name := by
  by_cases first : name = key
  · subst first
    rw [lookup_insert_self, lookup_insert_of_ne different, lookup_insert_self]
  by_cases last : name = other
  · subst last
    rw [lookup_insert_of_ne first, lookup_insert_self, lookup_insert_self]
  rw [lookup_insert_of_ne first, lookup_insert_of_ne last, lookup_insert_of_ne last,
    lookup_insert_of_ne first]

theorem erase_insert_self (key : String) (value : α) (fields : List (String × α)) :
    erase key (insert key value fields) = erase key fields := by
  induction fields with
  | nil => simp [insert, erase]
  | cons field rest ih =>
    obtain ⟨name, old⟩ := field
    rw [insert]
    split
    next same => simp [erase, same]
    next different =>
      unfold erase at ih ⊢
      rw [List.filter_cons, List.filter_cons, ih]

end Fields

namespace Schema

/-! ### Schemas under keywords -/

theorem validators_eq (options : List Json) : validators options = options.map violations := by
  induction options with
  | nil => rfl
  | cons option rest ih => rw [validators, ih, List.map_cons]

theorem validatorsOf_eq (properties : List (String × Json)) :
    validatorsOf properties = properties.map fun property => (property.1, violations property.2) := by
  induction properties with
  | nil => rfl
  | cons property rest ih => rw [validatorsOf, ih, List.map_cons]

theorem validatorAt_eq (key : String) (fields : List (String × Json)) :
    validatorAt key fields = (fields.lookup key).map violations := by
  induction fields with
  | nil => rfl
  | cons field rest ih =>
    obtain ⟨name, value⟩ := field
    rw [validatorAt]
    by_cases same : name = key
    · simp [same]
    · simpa [same, List.lookup_cons, beq_false_of_ne (Ne.symm same)] using ih

theorem validatorsAt_eq (key : String) (fields : List (String × Json)) :
    validatorsAt key fields =
      ((fields.lookup key).bind Json.array?).map fun options => options.map violations := by
  induction fields with
  | nil => rfl
  | cons field rest ih =>
    obtain ⟨name, value⟩ := field
    by_cases same : name = key
    · cases value <;> simp [validatorsAt, same, Json.array?, validators_eq]
    · have later : validatorsAt key ((name, value) :: rest) = validatorsAt key rest := by
        cases value <;> simp [validatorsAt, same]
      rw [later, ih, List.lookup_cons, beq_false_of_ne (Ne.symm same)]

/-- The schemas of the properties under their names. -/
def propertySchemas (fields : List (String × Json)) : List (String × Json) :=
  ((fields.lookup "properties").bind Json.object?).getD []

theorem namedValidators_eq (fields : List (String × Json)) :
    namedValidators fields =
      (propertySchemas fields).map fun property => (property.1, violations property.2) := by
  induction fields with
  | nil => rfl
  | cons field rest ih =>
    obtain ⟨name, value⟩ := field
    by_cases same : name = "properties"
    · cases value <;>
        simp [namedValidators, propertySchemas, same, Json.object?, validatorsOf_eq]
    · have later : namedValidators ((name, value) :: rest) = namedValidators rest := by
        cases value <;> simp [namedValidators, same]
      rw [later, ih]
      simp only [propertySchemas, List.lookup_cons, beq_false_of_ne (Ne.symm same)]

theorem lookup_map_snd {α β : Type} (f : α → β) (name : String) (fields : List (String × α)) :
    (fields.map fun field => (field.1, f field.2)).lookup name = (fields.lookup name).map f := by
  induction fields with
  | nil => rfl
  | cons field rest ih =>
    rw [List.map_cons, List.lookup_cons, List.lookup_cons, ih]
    cases name == field.1 <;> rfl

/-! ### Bounds -/

/-- What a bound is about. -/
inductive Measure where
  /-- The value of a number. -/
  | value
  /-- The number of characters of a string. -/
  | length
  /-- The number of items of an array. -/
  | items
  deriving DecidableEq

namespace Measure

/-- The keyword of the lower or the upper bound. -/
def key : Measure → Bool → String
  | value, true => "minimum"
  | value, false => "maximum"
  | length, true => "minLength"
  | length, false => "maxLength"
  | items, true => "minItems"
  | items, false => "maxItems"

/-- The number of parts of a value that a bound counts. -/
def count? : Measure → Json → Option Nat
  | length, .string text => some text.length
  | items, .array parts => some parts.length
  | _, _ => none

/-- A value meets the bound that a setting gives. Settings that are no bounds ask nothing. -/
def Meets (measure : Measure) (lower : Bool) (setting value : Json) : Prop :=
  match measure with
  | .value => ∀ bound ∈ setting.number?, ∀ number ∈ value.number?,
      ¬ (if lower then number < bound else bound < number)
  | counted => ∀ bound ∈ setting.natural?, ∀ count ∈ counted.count? value,
      if lower then bound ≤ count else count ≤ bound

end Measure

/-! ### What the keywords ask -/

/-- A value violates nothing of a schema. -/
def Accepts (schema value : Json) (path : String) : Prop := violations schema value path = []

/-- The setting of the keyword `type` allows a value. A setting without names allows every value. -/
def TypeAllows (declared value : Json) : Prop :=
  allowedTypes declared ≠ [] → ∃ name ∈ allowedTypes declared, hasType name value = true

/-- The keywords of a schema. The two that are about the properties of an object go together. -/
inductive Keyword where
  | type
  | enum
  | const
  | bound (measure : Measure) (lower : Bool)
  | anyOf
  | items
  | required
  | properties
  deriving DecidableEq

namespace Keyword

/-- All keywords. -/
def all : List Keyword :=
  [type, enum, const, bound .value true, bound .value false, bound .length true,
    bound .length false, bound .items true, bound .items false, anyOf, items, required, properties]

theorem mem_all (keyword : Keyword) : keyword ∈ all := by
  cases keyword with
  | bound measure lower => cases measure <;> cases lower <;> decide
  | _ => decide

/-- The fields that a keyword is set by. -/
def names : Keyword → List String
  | type => ["type"]
  | enum => ["enum"]
  | const => ["const"]
  | bound measure lower => [measure.key lower]
  | anyOf => ["anyOf"]
  | items => ["items"]
  | required => ["required"]
  | properties => ["properties", "additionalProperties"]

/-- What a keyword of a schema object asks of a value that stands at a path. -/
def Asks (keyword : Keyword) (fields : List (String × Json)) (value : Json) (path : String) : Prop :=
  match keyword with
  | type => ∀ declared ∈ fields.lookup "type", TypeAllows declared value
  | enum => ∀ options, fields.lookup "enum" = some (.array options) →
      ∃ option ∈ options, option.same value = true
  | const => ∀ expected ∈ fields.lookup "const", expected.same value = true
  | bound measure lower => ∀ setting ∈ fields.lookup (measure.key lower),
      measure.Meets lower setting value
  | anyOf => ∀ options, fields.lookup "anyOf" = some (.array options) →
      ∃ option ∈ options, Accepts option value path
  | items => ∀ schema ∈ fields.lookup "items", ∀ parts, value = .array parts →
      ∀ (index : Nat) (part : Json), parts[index]? = some part →
        Accepts schema part (pointer path (toString index))
  | required => ∀ names, fields.lookup "required" = some (.array names) →
      ∀ members, value = .object members → ∀ name, .string name ∈ names →
        (members.lookup name).isSome = true
  | properties => ∀ members, value = .object members → ∀ name member, (name, member) ∈ members →
      (∀ schema ∈ (propertySchemas fields).lookup name,
        Accepts schema member (pointer path name)) ∧
      ((propertySchemas fields).lookup name = none →
        fields.lookup "additionalProperties" ≠ some (.bool false) ∧
          ∀ rest, fields.lookup "additionalProperties" = some (.object rest) →
            Accepts (.object rest) member (pointer path name))

end Keyword

/-- A value meets all keywords of a schema object. -/
def Meets (fields : List (String × Json)) (value : Json) (path : String) : Prop :=
  ∀ keyword : Keyword, keyword.Asks fields value path

theorem violated_eq_nil {condition : Bool} {constraint : Constraint} :
    violated condition constraint = [] ↔ condition = false := by
  cases condition <;> simp [violated]

theorem typeViolation?_eq_none {fields : List (String × Json)} {value : Json} :
    typeViolation? fields value = none ↔
      ∀ declared ∈ fields.lookup "type", TypeAllows declared value := by
  unfold typeViolation? TypeAllows
  cases fields.lookup "type" with
  | none => simp
  | some declared =>
    by_cases none : allowedTypes declared = [] <;> simp [none]

theorem valueViolations_eq_nil {fields : List (String × Json)} {value : Json} :
    valueViolations fields value = [] ↔
      (∀ options, fields.lookup "enum" = some (.array options) →
        ∃ option ∈ options, option.same value = true) ∧
      ∀ expected ∈ fields.lookup "const", expected.same value = true := by
  unfold valueViolations
  rw [List.append_eq_nil_iff]
  refine and_congr ?_ ?_
  · split
    next options found => simp [found, violated_eq_nil]
    next other => exact iff_of_true rfl fun options found => absurd found (other options)
  · cases fields.lookup "const" <;> simp [violated_eq_nil]

theorem numberViolations_eq_nil {fields : List (String × Json)} {value : Json} :
    numberViolations fields value = [] ↔
      ∀ lower, ∀ setting ∈ fields.lookup (Measure.value.key lower),
        Measure.value.Meets lower setting value := by
  unfold numberViolations
  cases found : value.number? with
  | none => simp [Measure.Meets, found]
  | some number =>
    rw [List.append_eq_nil_iff, Bool.forall_bool, and_comm]
    simp only [Measure.key]
    refine and_congr ?_ ?_
    · cases fields.lookup "maximum" with
      | none => simp
      | some setting =>
        simp only [Option.bind_some]
        cases given : setting.number? <;> simp [Measure.Meets, found, given, violated_eq_nil]
    · cases fields.lookup "minimum" with
      | none => simp
      | some setting =>
        simp only [Option.bind_some]
        cases given : setting.number? <;> simp [Measure.Meets, found, given, violated_eq_nil]

theorem countViolations_eq_nil {fields : List (String × Json)} {least most : String}
    {tooFew tooMany : Nat → Constraint} {count : Nat} :
    countViolations fields least most tooFew tooMany count = [] ↔
      (∀ setting ∈ fields.lookup least, ∀ bound ∈ setting.natural?, bound ≤ count) ∧
        ∀ setting ∈ fields.lookup most, ∀ bound ∈ setting.natural?, count ≤ bound := by
  unfold countViolations
  rw [List.append_eq_nil_iff]
  refine and_congr ?_ ?_
  · cases fields.lookup least with
    | none => simp
    | some setting =>
      simp only [Option.bind_some]
      cases given : setting.natural? <;> simp [given, violated_eq_nil]
  · cases fields.lookup most with
    | none => simp
    | some setting =>
      simp only [Option.bind_some]
      cases given : setting.natural? <;> simp [given, violated_eq_nil]

theorem lengthViolations_eq_nil {fields : List (String × Json)} {value : Json} :
    lengthViolations fields value = [] ↔
      ∀ lower, ∀ setting ∈ fields.lookup (Measure.length.key lower),
        Measure.length.Meets lower setting value := by
  cases value with
  | string text =>
    rw [lengthViolations, countViolations_eq_nil, Bool.forall_bool, and_comm]
    simp [Measure.Meets, Measure.key, Measure.count?]
  | _ => simp [lengthViolations, Measure.Meets, Measure.count?]

theorem itemCountViolations_eq_nil {fields : List (String × Json)} {value : Json} :
    itemCountViolations fields value = [] ↔
      ∀ lower, ∀ setting ∈ fields.lookup (Measure.items.key lower),
        Measure.items.Meets lower setting value := by
  cases value with
  | array parts =>
    rw [itemCountViolations, countViolations_eq_nil, Bool.forall_bool, and_comm]
    simp [Measure.Meets, Measure.key, Measure.count?]
  | _ => simp [itemCountViolations, Measure.Meets, Measure.count?]

theorem optionViolations_eq_nil {fields : List (String × Json)} {value : Json} {path : String} :
    optionViolations (validatorsAt "anyOf" fields) value path = [] ↔
      ∀ options, fields.lookup "anyOf" = some (.array options) →
        ∃ option ∈ options, Accepts option value path := by
  rw [validatorsAt_eq]
  cases fields.lookup "anyOf" with
  | none => simp [optionViolations]
  | some setting =>
    cases setting <;> simp [optionViolations, Json.array?, violated_eq_nil, Accepts]

theorem itemViolations_eq_nil {fields : List (String × Json)} {value : Json} {path : String} :
    itemViolations (validatorAt "items" fields) value path = [] ↔
      ∀ schema ∈ fields.lookup "items", ∀ parts, value = .array parts →
        ∀ (index : Nat) (part : Json), parts[index]? = some part →
          Accepts schema part (pointer path (toString index)) := by
  rw [validatorAt_eq]
  cases fields.lookup "items" with
  | none => simp [itemViolations]
  | some schema =>
    cases value with
    | array parts =>
      simp only [itemViolations, Option.map_some, List.flatMap_eq_nil_iff, Prod.forall,
        List.mem_zipIdx_iff_getElem?, Option.mem_some_iff, forall_eq', Json.array.injEq]
      exact forall_comm
    | _ => simp [itemViolations]

theorem string?_eq_some_iff {value : Json} {text : String} :
    value.string? = some text ↔ value = .string text := by
  cases value <;> simp [Json.string?]

theorem requiredViolations_eq_nil {fields : List (String × Json)} {value : Json} :
    requiredViolations fields value = [] ↔
      ∀ names, fields.lookup "required" = some (.array names) →
        ∀ members, value = .object members → ∀ name, .string name ∈ names →
          (members.lookup name).isSome = true := by
  cases value with
  | object members =>
    cases found : fields.lookup "required" with
    | none => simp [requiredViolations, found]
    | some setting =>
      cases setting with
      | array names =>
        simp only [requiredViolations, found, List.map_eq_nil_iff, List.filter_eq_nil_iff,
          List.mem_filterMap, string?_eq_some_iff, exists_eq_right, Option.some.injEq,
          Json.array.injEq, Json.object.injEq, forall_eq', Bool.not_eq_true,
          Option.isNone_eq_false_iff]
      | _ => simp [requiredViolations, found]
  | _ => simp [requiredViolations]

theorem propertyViolations_eq_nil {fields : List (String × Json)} {value : Json} {path : String} :
    propertyViolations (namedValidators fields) (fields.lookup "additionalProperties")
        (validatorAt "additionalProperties" fields) value path = [] ↔
      ∀ members, value = .object members → ∀ name member, (name, member) ∈ members →
        (∀ schema ∈ (propertySchemas fields).lookup name,
          Accepts schema member (pointer path name)) ∧
        ((propertySchemas fields).lookup name = none →
          fields.lookup "additionalProperties" ≠ some (.bool false) ∧
            ∀ rest, fields.lookup "additionalProperties" = some (.object rest) →
              Accepts (.object rest) member (pointer path name)) := by
  rw [namedValidators_eq, validatorAt_eq]
  cases value with
  | object members =>
    simp only [propertyViolations, List.flatMap_eq_nil_iff, lookup_map_snd, Prod.forall,
      Json.object.injEq, forall_eq']
    refine forall_congr' fun name => forall_congr' fun member => forall_congr' fun _ => ?_
    cases found : (propertySchemas fields).lookup name with
    | some schema => simp [Accepts]
    | none =>
      cases fields.lookup "additionalProperties" with
      | none => simp [additionalViolations]
      | some setting =>
        cases setting with
        | bool allowed => cases allowed <;> simp [additionalViolations]
        | _ => simp [additionalViolations, Accepts]
  | _ => simp [propertyViolations]

/-- **A value violates nothing of a schema object exactly when it meets each of its keywords.** -/
theorem accepts_object_iff {fields : List (String × Json)} {value : Json} {path : String} :
    Accepts (.object fields) value path ↔ Meets fields value path := by
  have split : Accepts (.object fields) value path ↔
      typeViolation? fields value = none ∧ valueViolations fields value = [] ∧
        numberViolations fields value = [] ∧ lengthViolations fields value = [] ∧
        optionViolations (validatorsAt "anyOf" fields) value path = [] ∧
        itemCountViolations fields value = [] ∧
        itemViolations (validatorAt "items" fields) value path = [] ∧
        requiredViolations fields value = [] ∧
        propertyViolations (namedValidators fields) (fields.lookup "additionalProperties")
          (validatorAt "additionalProperties" fields) value path = [] := by
    unfold Accepts
    rw [violations]
    simp only []
    cases typeViolation? fields value <;> simp
  rw [split, typeViolation?_eq_none, valueViolations_eq_nil, numberViolations_eq_nil,
    lengthViolations_eq_nil, optionViolations_eq_nil, itemCountViolations_eq_nil,
    itemViolations_eq_nil, requiredViolations_eq_nil, propertyViolations_eq_nil]
  constructor
  · rintro ⟨type, ⟨enum, const⟩, values, lengths, anyOf, counts, items, required, properties⟩
    intro keyword
    cases keyword with
    | type => exact type
    | enum => exact enum
    | const => exact const
    | bound measure lower =>
      cases measure with
      | value => exact values lower
      | length => exact lengths lower
      | items => exact counts lower
    | anyOf => exact anyOf
    | items => exact items
    | required => exact required
    | properties => exact properties
  · intro meets
    exact ⟨meets .type, ⟨meets .enum, meets .const⟩, fun lower => meets (.bound .value lower),
      fun lower => meets (.bound .length lower), meets .anyOf,
      fun lower => meets (.bound .items lower), meets .items, meets .required, meets .properties⟩

/-! ### One keyword apart -/

section Settings

variable {fields others : List (String × Json)} {value : Json} {path : String}

theorem Keyword.asks_congr {keyword : Keyword}
    (same : ∀ key ∈ keyword.names, fields.lookup key = others.lookup key) :
    keyword.Asks fields value path ↔ keyword.Asks others value path := by
  cases keyword <;> simp_all [Keyword.names, Keyword.Asks, propertySchemas]

/-- **Only the settings of the keywords count.** -/
theorem meets_congr (same : ∀ key, fields.lookup key = others.lookup key) :
    Meets fields value path ↔ Meets others value path :=
  forall_congr' fun _ => Keyword.asks_congr fun key _ => same key

/-- A keyword that is not set asks nothing. -/
theorem Keyword.asks_of_unset {keyword : Keyword}
    (unset : ∀ key ∈ keyword.names, fields.lookup key = none) :
    keyword.Asks fields value path := by
  have first : ∀ {key rest}, keyword.names = key :: rest → fields.lookup key = none :=
    fun same => unset _ (same ▸ List.mem_cons_self)
  cases keyword with
  | properties =>
    simp [Keyword.Asks, propertySchemas, first rfl, unset "additionalProperties" (by decide)]
  | _ => simp [Keyword.Asks, first rfl]

/-- **Only the keywords that are set count**, and which are set is read off the names of the fields.
-/
theorem meets_iff_of_names (names : List String) (set : Fields.names fields = names)
    (keywords : List Keyword)
    (others : ∀ keyword ∈ Keyword.all, keyword ∈ keywords ∨ ∀ key ∈ keyword.names, key ∉ names) :
    Meets fields value path ↔ ∀ keyword ∈ keywords, keyword.Asks fields value path := by
  refine ⟨fun meets keyword _ => meets keyword, fun asks keyword => ?_⟩
  rcases others keyword keyword.mem_all with listed | unset
  · exact asks keyword listed
  · refine Keyword.asks_of_unset fun key reads => List.lookup_eq_none_iff.mpr fun field member => ?_
    have named : field.1 ∈ names := set ▸ List.mem_map_of_mem member
    exact bne_iff_ne.mpr fun same => unset key reads (same ▸ named)

/-- No two keywords read the same field. -/
theorem Keyword.eq_of_mem_names {keyword other : Keyword} {key : String} (own : key ∈ keyword.names)
    (reads : key ∈ other.names) : other = keyword := by
  have apart : ∀ keyword ∈ all, ∀ other ∈ all, ∀ key ∈ keyword.names, key ∈ other.names →
      other = keyword := by
    decide
  exact apart keyword keyword.mem_all other other.mem_all key own reads

/-- **A value meets a schema object exactly when it meets one of its keywords and all the others.**
-/
theorem meets_iff_apart (keyword : Keyword) {key : String} (own : keyword.names = [key]) :
    Meets fields value path ↔
      keyword.Asks fields value path ∧ Meets (Fields.erase key fields) value path := by
  have kept : ∀ other ≠ keyword, (other.Asks fields value path ↔
      other.Asks (Fields.erase key fields) value path) := by
    intro other different
    refine Keyword.asks_congr fun name reads => (Fields.lookup_erase_of_ne ?_ fields).symm
    rintro rfl
    exact different (Keyword.eq_of_mem_names (own ▸ List.mem_singleton_self name) reads)
  constructor
  · intro meets
    refine ⟨meets keyword, fun other => ?_⟩
    by_cases same : other = keyword
    · refine Keyword.asks_of_unset fun name reads => ?_
      rw [same, own, List.mem_singleton] at reads
      rw [reads, Fields.lookup_erase_self]
    · exact (kept other same).mp (meets other)
  · rintro ⟨asks, meets⟩ other
    by_cases same : other = keyword
    · exact same ▸ asks
    · exact (kept other same).mpr (meets other)

end Settings

end Schema

end PromptMarkup
