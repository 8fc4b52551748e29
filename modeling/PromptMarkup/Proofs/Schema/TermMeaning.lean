/-
**Schemas mean what their terms mean.**

The schema that a term builds allows the values that the term is about, as far as its bounds are
heeded. A bound is heeded unless it counts characters or items and is too large to be kept as a
whole number: as a float it is no bound of that keyword.

* `Bound.IsHeeded`: the bounds that count;
* `allows_iff_means`: where all bounds count, a term allows what it means;
* `lookup_bound`, `meets_bound_iff`: the bounds of a term among the settings of its schema, and what
  they ask;
* `meetsKind_iff`: what the other settings ask, by mutual recursion on terms;
* `accepts_build_iff`: the schema of a term allows what the term means.
-/

import PromptMarkup.Proofs.Schema.Terms
import PromptMarkup.Proofs.Value.WholeNumbers

namespace PromptMarkup.Schema

/-! ### Bounds that are heeded -/

/-- A bound that can be kept: any bound of a number, and a bound of a length or a number of items
below two to the sixty-third. -/
def Bound.IsHeeded (measure : Measure) (limit : Bound) : Prop :=
  measure = .value ∨ limit.value.abs < 9223372036854775808.0

namespace Term

variable {heeds : Measure → Bound → Prop} {value : Json}

theorem keepsBounds_congr (term : Term) (every : term.EveryBound heeds) :
    term.KeepsBounds heeds value ↔ term.KeepsBounds (fun _ _ => True) value := by
  unfold KeepsBounds
  refine forall₂_congr fun measure about => forall_congr' fun lower => ?_
  refine forall₂_congr fun limit set => ?_
  have heeded : heeds measure limit := EveryBound.bound? term every about set
  exact ⟨fun within _ => within heeded, fun within _ => within trivial⟩

mutual

theorem isOfKind_congr : ∀ (term : Term), term.EveryBound heeds → ∀ value,
    term.IsOfKind heeds value ↔ term.IsOfKind (fun _ _ => True) value
  | string, _, _ => Iff.rfl
  | number, _, _ => Iff.rfl
  | integer, _, _ => Iff.rfl
  | boolean, _, _ => Iff.rfl
  | null, _, _ => Iff.rfl
  | any, _, _ => Iff.rfl
  | array item, every, value => by
    simp only [IsOfKind, isOfKind_congr item every, keepsBounds_congr item every]
  | object fields, every, value => by
    simp only [IsOfKind, fieldAllows_congr fields every]
  | enum _, _, _ => Iff.rfl
  | literal _, _, _ => Iff.rfl
  | union options, every, value => someAllows_congr options every value
  | describe _ term, every, value => isOfKind_congr term every value
  | optional term, every, value => isOfKind_congr term every value
  | int term, every, value => and_congr Iff.rfl (isOfKind_congr term every value)
  | bound _ _ term, every, value => isOfKind_congr term every.2 value

theorem fieldAllows_congr : ∀ (fields : List (String × Term)), EveryBoundOfFields heeds fields →
    ∀ name value, FieldAllows heeds fields name value ↔
      FieldAllows (fun _ _ => True) fields name value
  | [], _, _, _ => Iff.rfl
  | (key, term) :: rest, every, name, value => by
    simp only [FieldAllows, isOfKind_congr term every.1, keepsBounds_congr term every.1,
      fieldAllows_congr rest every.2]

theorem someAllows_congr : ∀ (options : List Term), EveryBoundOfAll heeds options →
    ∀ value, SomeAllows heeds options value ↔ SomeAllows (fun _ _ => True) options value
  | [], _, _ => Iff.rfl
  | term :: rest, every, value => by
    simp only [SomeAllows, isOfKind_congr term every.1, keepsBounds_congr term every.1,
      someAllows_congr rest every.2]

end

/-- **Where all bounds are heeded, a term allows what it means.** -/
theorem allows_iff_means {term : Term} (every : term.EveryBound heeds) :
    term.Allows heeds value ↔ term.Means value :=
  and_congr (isOfKind_congr term every value) (keepsBounds_congr term every)

end Term

/-! ### What bounds ask -/

theorem isFinite_of_isWhole {number : Float} (whole : Number.isWhole number = true) :
    number.isFinite = true := by
  unfold Number.isWhole at whole
  show number.toModel.unpack.isFinite = true
  split at whole
  next shape => rw [shape]; rfl
  next shape => rw [shape]; rfl
  next => cases whole

section Limit

variable (limit : Bound)

theorem boundJson_of_small (small : limit.value.abs < 9223372036854775808.0) :
    Builder.boundJson limit.value = .integer (Number.toInt limit.value) := by
  rw [Builder.boundJson, limit.whole, if_pos (by simpa using small)]

theorem boundJson_of_large (large : ¬ limit.value.abs < 9223372036854775808.0) :
    Builder.boundJson limit.value = .float limit.value := by
  rw [Builder.boundJson, if_neg (by simpa using fun _ => large),
    if_pos (isFinite_of_isWhole limit.whole)]

/-- A bound of a number asks what it says, whatever form it has. -/
theorem meets_value_iff (lower : Bool) (value : Json) :
    Measure.value.Meets lower (Builder.boundJson limit.value) value ↔
      Measure.value.Within lower limit value := by
  have below := Number.lt_ofInt_toInt limit.whole limit.nonneg
  have above := Number.ofInt_toInt_lt limit.whole limit.nonneg
  by_cases small : limit.value.abs < 9223372036854775808.0
  · rw [boundJson_of_small limit small]
    simp [Measure.Meets, Measure.Within, Json.number?, below, above]
  · rw [boundJson_of_large limit small]
    simp [Measure.Meets, Measure.Within, Json.number?]

/-- The bound of a count is heeded if it is kept as a whole number. -/
theorem meets_count_iff {measure : Measure} (counted : measure ≠ .value) (lower : Bool)
    (value : Json) : measure.Meets lower (Builder.boundJson limit.value) value ↔
      (limit.value.abs < 9223372036854775808.0 → measure.Within lower limit value) := by
  have natural : (Json.integer (Number.toInt limit.value)).natural? =
      some (Number.toInt limit.value).toNat := if_pos (Number.toInt_nonneg limit.whole limit.nonneg)
  have same := Int.toNat_of_nonneg (Number.toInt_nonneg limit.whole limit.nonneg)
  by_cases small : limit.value.abs < 9223372036854775808.0
  · rw [boundJson_of_small limit small]
    cases measure with
    | value => exact absurd rfl counted
    | _ =>
      simp only [Measure.Meets, Measure.Within, natural, small, Option.mem_some_iff, forall_eq',
        forall_const]
      refine forall₂_congr fun count _ => ?_
      split <;> omega
  · rw [boundJson_of_large limit small]
    cases measure with
    | value => exact absurd rfl counted
    | _ => simp [Measure.Meets, Json.natural?, small]

/-- **A bound asks what it says**, if it is heeded; else it asks nothing. -/
theorem meets_bound_iff (measure : Measure) (lower : Bool) (value : Json) :
    measure.Meets lower (Builder.boundJson limit.value) value ↔
      (limit.IsHeeded measure → measure.Within lower limit value) := by
  by_cases number : measure = .value
  · subst number
    rw [meets_value_iff]
    exact ⟨fun within _ => within, fun within => within (.inl rfl)⟩
  · rw [meets_count_iff limit number, Bound.IsHeeded, or_iff_right number]

end Limit

/-! ### The settings of a schema -/

theorem Measure.key_injective {measure other : Measure} {lower upper : Bool}
    (same : measure.key lower = other.key upper) : measure = other ∧ lower = upper := by
  have equal : Keyword.bound measure lower = .bound other upper :=
    Keyword.eq_of_mem_names (List.mem_singleton_self (other.key upper))
      (same ▸ List.mem_singleton_self (measure.key lower))
  cases equal
  exact ⟨rfl, rfl⟩

namespace Term

/-- **The type that the schema of a term declares**, where bounds are about something. -/
theorem declaredType_builder {measure : Measure} : ∀ term : Term, term.IsProper →
    term.measure? = some measure → ∃ name, term.builder.declaredType = some name ∧
      Measure.ofType (some name) = measure ∧ (measure = .value → name = "number" ∨ name = "integer")
  | string, _, about => by
    cases about
    exact ⟨"string", rfl, rfl, by simp⟩
  | number, _, about => by
    cases about
    exact ⟨"number", rfl, rfl, by simp⟩
  | integer, _, about => by
    cases about
    exact ⟨"integer", rfl, rfl, by simp⟩
  | array item, _, about => by
    cases about
    exact ⟨"array", rfl, rfl, by simp⟩
  | enum values, _, about => by
    rw [measure?] at about
    split at about
    next texts =>
      cases about
      refine ⟨"string", ?_, rfl, by simp⟩
      rw [builder, enumOf, if_pos texts]
      rfl
    next => cases about
  | describe text term, proper, about => by
    rw [builder, declaredType_set (by decide)]
    exact declaredType_builder term proper about
  | optional term, proper, about => declaredType_builder term proper about
  | int term, proper, about => by
    obtain ⟨number, proper⟩ := proper
    have same : measure = .value := Option.some.inj (about.symm.trans number)
    subst same
    refine ⟨"integer", ?_, rfl, by simp⟩
    simp [builder, Builder.declaredType, Builder.set, Fields.lookup_insert_self, Json.string?]
  | bound lower limit term, proper, about => by
    rw [builder, withBound_eq, declaredType_set (Measure.type_ne_key _ _)]
    exact declaredType_builder term proper.2 about

/-- **The bounds among the settings of a schema are those of the term.** -/
theorem lookup_bound (measure : Measure) (lower : Bool) : ∀ term : Term, term.IsProper →
    term.builder.fields.lookup (measure.key lower) =
      if term.measure? = some measure then
        (term.bound? lower).map fun limit => Builder.boundJson limit.value
      else none
  | string, _ => by cases measure <;> cases lower <;> rfl
  | number, _ => by cases measure <;> cases lower <;> rfl
  | integer, _ => by cases measure <;> cases lower <;> rfl
  | boolean, _ => by cases measure <;> cases lower <;> rfl
  | null, _ => by cases measure <;> cases lower <;> rfl
  | any, _ => by cases measure <;> cases lower <;> rfl
  | array item, _ => by cases measure <;> cases lower <;> rfl
  | object fields, _ => by cases measure <;> cases lower <;> rfl
  | enum values, _ => by
    have unset : (enumOf (Value.itemsToJson values)).fields.lookup (measure.key lower) = none := by
      unfold enumOf
      split <;> cases measure <;> cases lower <;> rfl
    rw [builder, unset]
    simp [bound?]
  | literal value, _ => by cases measure <;> cases lower <;> rfl
  | union options, _ => by cases measure <;> cases lower <;> rfl
  | describe text term, proper => by
    have other : measure.key lower ≠ "description" := by
      cases measure <;> cases lower <;> decide
    rw [builder, Builder.set, Fields.lookup_insert_of_ne other]
    exact lookup_bound measure lower term proper
  | optional term, proper => lookup_bound measure lower term proper
  | int term, proper => by
    rw [builder, Builder.set, Fields.lookup_insert_of_ne (Measure.type_ne_key measure lower).symm]
    exact lookup_bound measure lower term proper.2
  | bound side limit term, proper => by
    obtain ⟨about, proper⟩ := proper
    obtain ⟨counted, about⟩ := Option.isSome_iff_exists.mp about
    obtain ⟨name, declared, type, -⟩ := declaredType_builder term proper about
    have earlier := lookup_bound measure lower term proper
    rw [builder, withBound_eq, declared, type, Builder.set, measure?, bound?]
    by_cases same : measure.key lower = counted.key side
    · obtain ⟨rfl, rfl⟩ := Measure.key_injective same
      rw [Fields.lookup_insert_self, if_pos about, if_pos rfl, Option.map_some]
    · rw [Fields.lookup_insert_of_ne same, earlier]
      split
      next equal =>
        have apart : side ≠ lower := by
          rintro rfl
          exact same (by rw [Option.some.inj (equal.symm.trans about)])
        rw [if_neg apart]
      next => rfl

end Term

/-! ### Kinds and bounds -/

/-- A keyword that sets a bound. -/
def Keyword.isBound : Keyword → Bool
  | bound _ _ => true
  | _ => false

/-- A value meets the keywords of a schema object that set no bounds. -/
def MeetsKind (fields : List (String × Json)) (value : Json) (path : String) : Prop :=
  ∀ keyword : Keyword, keyword.isBound = false → keyword.Asks fields value path

section Kind

variable {fields others : List (String × Json)} {value : Json} {path : String}

theorem meets_iff_kind : Meets fields value path ↔ MeetsKind fields value path ∧
    ∀ measure lower, (Keyword.bound measure lower).Asks fields value path := by
  refine ⟨fun meets => ⟨fun keyword _ => meets keyword, fun measure lower => meets _⟩, ?_⟩
  rintro ⟨kind, bounds⟩ keyword
  cases keyword with
  | bound measure lower => exact bounds measure lower
  | _ => exact kind _ rfl

theorem meetsKind_congr (same : ∀ keyword : Keyword, keyword.isBound = false →
    ∀ key ∈ keyword.names, fields.lookup key = others.lookup key) :
    MeetsKind fields value path ↔ MeetsKind others value path :=
  forall₂_congr fun keyword kind => Keyword.asks_congr (same keyword kind)

theorem meetsKind_iff_of_names (names : List String) (set : Fields.names fields = names)
    (keywords : List Keyword)
    (others : ∀ keyword ∈ Keyword.all, keyword ∈ keywords ∨ ∀ key ∈ keyword.names, key ∉ names)
    (kinds : ∀ keyword ∈ keywords, keyword.isBound = false) :
    MeetsKind fields value path ↔ ∀ keyword ∈ keywords, keyword.Asks fields value path := by
  refine ⟨fun meets keyword listed => meets keyword (kinds keyword listed), fun asks => ?_⟩
  exact (meets_iff_kind.mp ((meets_iff_of_names names set keywords others).mpr asks)).1

/-- A setting that is a bound, or that no keyword reads. -/
theorem meetsKind_insert {key : String} {setting : Json}
    (free : ∀ keyword ∈ Keyword.all, keyword.isBound = false → key ∉ keyword.names) :
    MeetsKind (Fields.insert key setting fields) value path ↔ MeetsKind fields value path := by
  refine meetsKind_congr fun keyword kind name reads => Fields.lookup_insert_of_ne ?_ _ fields
  rintro rfl
  exact free keyword keyword.mem_all kind reads

/-- A single type in the place of another one that allows more. -/
theorem meetsKind_insert_type {name narrow : String}
    (declared : fields.lookup "type" = some (.string name))
    (narrows : hasType narrow value = true → hasType name value = true) :
    MeetsKind (Fields.insert "type" (.string narrow) fields) value path ↔
      hasType narrow value = true ∧ MeetsKind fields value path := by
  have own : Keyword.type.Asks (Fields.insert "type" (.string narrow) fields) value path ↔
      hasType narrow value = true := by
    simp [Keyword.Asks, Fields.lookup_insert_self, typeAllows_string_iff]
  have kept : ∀ keyword : Keyword, keyword ≠ .type →
      (keyword.Asks (Fields.insert "type" (.string narrow) fields) value path ↔
        keyword.Asks fields value path) := by
    intro keyword different
    refine Keyword.asks_congr fun key reads => Fields.lookup_insert_of_ne ?_ _ fields
    rintro rfl
    exact different (Keyword.eq_of_mem_names (List.mem_singleton_self "type") reads)
  constructor
  · intro meets
    have type := own.mp (meets .type rfl)
    refine ⟨type, fun keyword kind => ?_⟩
    by_cases same : keyword = .type
    · subst same
      simpa [Keyword.Asks, declared, typeAllows_string_iff] using narrows type
    · exact (kept keyword same).mp (meets keyword kind)
  · rintro ⟨type, meets⟩ keyword kind
    by_cases same : keyword = .type
    · exact same ▸ own.mpr type
    · exact (kept keyword same).mpr (meets keyword kind)

theorem meetsKind_typed {name : String} :
    MeetsKind (Builder.typed name).fields value path ↔ hasType name value = true := by
  rw [meetsKind_iff_of_names ["type"] rfl [.type] (by decide) (by decide)]
  simp [Builder.typed, Builder.ofFields, Keyword.Asks, typeAllows_string_iff]

theorem hasType_number_iff : hasType "number" value = true ↔
    ∃ number, value.number? = some number := by
  cases value <;> simp [hasType, typeOf, Json.number?]

theorem hasType_boolean_iff : hasType "boolean" value = true ↔ ∃ flag, value = .bool flag := by
  cases value <;> simp [hasType, typeOf]

theorem hasType_integer_iff : hasType "integer" value = true ↔ IsWholeNumber value := by
  cases value <;> simp [hasType, typeOf, IsWholeNumber]

theorem hasType_number_of_integer (integer : hasType "integer" value = true) :
    hasType "number" value = true := by
  cases value <;> simp_all [hasType, typeOf]

/-- The schema of an array of some items. -/
theorem meetsKind_arrayOf {item : Builder} :
    MeetsKind (Builder.arrayOf item).fields value path ↔ ∃ parts, value = .array parts ∧
      ∀ (index : Nat) (part : Json), parts[index]? = some part →
        Accepts item.schema part (pointer path (toString index)) := by
  rw [meetsKind_iff_of_names ["type", "items"] rfl [.type, .items] (by decide) (by decide)]
  cases value <;>
    simp [Builder.arrayOf, Builder.ofFields, Keyword.Asks, typeAllows_string_iff, hasType, typeOf,
      List.lookup_cons]

theorem hasType_string_iff : hasType "string" value = true ↔ ∃ text, value = .string text := by
  cases value <;> simp [hasType, typeOf]

theorem eq_of_same_string {text : String} (same : (Json.string text).same value = true) :
    value = .string text := by
  cases value <;> simp_all [Json.same]

/-- The schema of some values. The type that is declared where all of them are texts asks nothing
more. -/
theorem meetsKind_enumOf {options : List Json} :
    MeetsKind (enumOf options).fields value path ↔
      ∃ option ∈ options, option.same value = true := by
  unfold enumOf
  split
  next texts =>
    rw [meetsKind_iff_of_names ["type", "enum"] rfl [.type, .enum] (by decide) (by decide)]
    suffices (∃ option ∈ options, option.same value = true) → hasType "string" value = true by
      simpa [Builder.ofFields, Keyword.Asks, typeAllows_string_iff, List.lookup_cons] using this
    rintro ⟨option, listed, same⟩
    obtain ⟨text, isText⟩ := Option.isSome_iff_exists.mp (List.all_eq_true.mp texts option listed)
    rw [string?_eq_some_iff.mp isText] at same
    exact hasType_string_iff.mpr ⟨text, eq_of_same_string same⟩
  next =>
    rw [meetsKind_iff_of_names ["enum"] rfl [.enum] (by decide) (by decide)]
    simp [Builder.ofFields, Keyword.Asks]

theorem meetsKind_const {expected : Json} :
    MeetsKind [("const", expected)] value path ↔ expected.same value = true := by
  rw [meetsKind_iff_of_names ["const"] rfl [.const] (by decide) (by decide)]
  simp [Keyword.Asks]

/-- The schema of options. -/
theorem meetsKind_anyOf {options : List Json} :
    MeetsKind [("anyOf", .array options)] value path ↔
      ∃ option ∈ options, Accepts option value path := by
  rw [meetsKind_iff_of_names ["anyOf"] rfl [.anyOf] (by decide) (by decide)]
  simp [Keyword.Asks]

theorem hasType_object_iff : hasType "object" value = true ↔ ∃ members, value = .object members := by
  cases value <;> simp [hasType, typeOf]

/-- The schema of an object. -/
theorem meetsKind_objectOf {properties : List (String × Builder)} :
    MeetsKind (objectOf properties).fields value path ↔ ∃ members, value = .object members ∧
      (∀ property ∈ properties, property.2.optional = false →
        (members.lookup property.1).isSome = true) ∧
      ∀ member ∈ members, ∃ builder, properties.lookup member.1 = some builder ∧
        Accepts builder.schema member.2 (pointer path member.1) := by
  rw [meetsKind_iff_of_names ["type", "properties", "required", "additionalProperties"] rfl
    [.type, .required, .properties] (by decide) (by decide)]
  have type : Keyword.type.Asks (objectOf properties).fields value path ↔
      ∃ members, value = .object members := by
    simp [Keyword.Asks, objectOf, Builder.ofFields, typeAllows_string_iff, hasType_object_iff]
  have required : Keyword.required.Asks (objectOf properties).fields value path ↔
      ∀ members, value = .object members → ∀ property ∈ properties,
        property.2.optional = false → (members.lookup property.1).isSome = true := by
    simp [Keyword.Asks, objectOf, Builder.ofFields, List.lookup_cons]
  have schemas : propertySchemas (objectOf properties).fields =
      properties.map fun property => (property.1, property.2.schema) := rfl
  have each : Keyword.properties.Asks (objectOf properties).fields value path ↔
      ∀ members, value = .object members → ∀ member ∈ members, ∃ builder,
        properties.lookup member.1 = some builder ∧
          Accepts builder.schema member.2 (pointer path member.1) := by
    simp only [Keyword.Asks, schemas, lookup_map_snd, Prod.forall]
    refine forall₂_congr fun members _ => forall₂_congr fun name member => forall_congr' fun _ => ?_
    cases properties.lookup name with
    | none => simp [objectOf, Builder.ofFields, List.lookup_cons]
    | some builder => simp
  simp only [List.forall_mem_cons, List.not_mem_nil, false_imp_iff, implies_true, and_true, type,
    required, each]
  constructor
  · rintro ⟨⟨members, rfl⟩, present, allowed⟩
    exact ⟨members, rfl, present members rfl, allowed members rfl⟩
  · rintro ⟨members, rfl, present, allowed⟩
    refine ⟨⟨members, rfl⟩, ?_, ?_⟩
    · rintro _ ⟨⟩
      exact present
    · rintro _ ⟨⟩
      exact allowed

end Kind

namespace Term

theorem bounds_ask_iff {term : Term} (proper : term.IsProper) {value : Json} {path : String} :
    (∀ measure lower, (Keyword.bound measure lower).Asks term.builder.fields value path) ↔
      term.KeepsBounds Bound.IsHeeded value := by
  refine forall_congr' fun measure => ?_
  by_cases about : term.measure? = some measure
  · simp only [Keyword.Asks, lookup_bound measure _ term proper, about, if_true, forall_const,
      Option.mem_def, Option.map_eq_some_iff, forall_exists_index, and_imp,
      forall_apply_eq_imp_iff₂, meets_bound_iff]
  · simp [Keyword.Asks, lookup_bound measure _ term proper, about]

/-! ### Terms and their schemas -/

theorem fieldBuilders_eq_map (fields : List (String × Term)) :
    fieldBuilders fields = fields.map fun field => (field.1, field.2.builder) := by
  induction fields with
  | nil => rfl
  | cons field rest ih => rw [fieldBuilders, ih, List.map_cons]

theorem itemsToJson_eq_map (values : List Value) :
    Value.itemsToJson values = values.map Value.toJson := by
  induction values with
  | nil => rfl
  | cons value rest ih => rw [Value.itemsToJson, ih, List.map_cons]

theorem accepts_of_kind {term : Term} (proper : term.IsProper) {value : Json} {path : String}
    (kind : MeetsKind term.builder.fields value path ↔ term.IsOfKind Bound.IsHeeded value) :
    Accepts term.builder.schema value path ↔ term.Allows Bound.IsHeeded value :=
  accepts_object_iff.trans (meets_iff_kind.trans (and_congr kind (bounds_ask_iff proper)))

mutual

/-- **The settings that are no bounds ask for the kind of the term.** -/
theorem meetsKind_iff : ∀ term : Term, term.IsProper → ∀ value path,
    MeetsKind term.builder.fields value path ↔ term.IsOfKind Bound.IsHeeded value
  | string, _, _, _ => meetsKind_typed.trans hasType_string_iff
  | number, _, _, _ => meetsKind_typed.trans hasType_number_iff
  | integer, _, _, _ => meetsKind_typed.trans hasType_integer_iff
  | boolean, _, _, _ => meetsKind_typed.trans hasType_boolean_iff
  | null, _, _, _ => meetsKind_typed.trans hasType_null_iff
  | any, _, _, _ => by
    rw [builder, Builder.ofFields, meetsKind_iff_of_names [] rfl [] (by decide) (by decide)]
    simp [IsOfKind]
  | array item, proper, value, path => by
    have each (part : Json) (path : String) :
        Accepts item.builder.schema part path ↔ item.Allows Bound.IsHeeded part :=
      @accepts_of_kind item proper part path (meetsKind_iff item proper part path)
    simp only [builder, meetsKind_arrayOf, each, IsOfKind, Allows, List.mem_iff_getElem?]
    refine exists_congr fun parts => and_congr Iff.rfl ?_
    exact ⟨fun all part ⟨index, here⟩ => all index part here,
      fun all index part here => all part ⟨index, here⟩⟩
  | object fields, proper, value, path => by
    simp only [builder, meetsKind_objectOf, accepts_field_iff fields proper, IsOfKind]
    simp only [fieldBuilders_eq_map, List.forall_mem_map, optional_builder]
  | enum values, _, value, path => by
    rw [builder, meetsKind_enumOf, IsOfKind, itemsToJson_eq_map]
    simp only [List.mem_map, exists_exists_and_eq_and]
  | literal allowed, _, _, _ => meetsKind_const
  | union options, proper, value, path =>
    meetsKind_anyOf.trans (accepts_some_iff options proper value path)
  | describe text term, proper, value, path =>
    (meetsKind_insert (by decide)).trans (meetsKind_iff term proper value path)
  | optional term, proper, value, path => meetsKind_iff term proper value path
  | int term, proper, value, path => by
    obtain ⟨number, proper⟩ := proper
    obtain ⟨name, declared, -, numeric⟩ := declaredType_builder term proper number
    have narrows : hasType "integer" value = true → hasType name value = true := by
      rcases numeric rfl with rfl | rfl
      · exact hasType_number_of_integer
      · exact id
    exact (meetsKind_insert_type (lookup_type_of_declaredType declared) narrows).trans
      (and_congr hasType_integer_iff (meetsKind_iff term proper value path))
  | bound lower limit term, proper, value, path => by
    rw [builder, withBound_eq]
    refine (meetsKind_insert ?_).trans (meetsKind_iff term proper.2 value path)
    generalize Measure.ofType _ = measure
    cases measure <;> cases lower <;> decide

theorem accepts_field_iff : ∀ fields : List (String × Term), FieldsAreProper fields →
    ∀ name value path, (∃ builder, (fieldBuilders fields).lookup name = some builder ∧
      Accepts builder.schema value path) ↔ FieldAllows Bound.IsHeeded fields name value
  | [], _, _, _, _ => by simp [fieldBuilders, FieldAllows]
  | (key, term) :: rest, proper, name, value, path => by
    have first := accepts_of_kind proper.1 (meetsKind_iff term proper.1 value path)
    rw [fieldBuilders, FieldAllows]
    by_cases same : name = key
    · subst same
      simpa [List.lookup_cons, Allows] using first
    · simpa [List.lookup_cons, beq_false_of_ne same, same] using
        accepts_field_iff rest proper.2 name value path

theorem accepts_some_iff : ∀ options : List Term, OptionsAreProper options → ∀ value path,
    (∃ option ∈ (builders options).map Builder.schema, Accepts option value path) ↔
      SomeAllows Bound.IsHeeded options value
  | [], _, _, _ => by simp [builders, SomeAllows]
  | term :: rest, proper, value, path => by
    have first := accepts_of_kind proper.1 (meetsKind_iff term proper.1 value path)
    have others := accepts_some_iff rest proper.2 value path
    simp only [builders, List.map_cons, List.mem_cons, or_and_right, exists_or, exists_eq_left,
      first, others, SomeAllows, Allows]

end

/-- **What the schema of a term allows is what the term means, as far as its bounds are heeded.** -/
theorem accepts_build_iff {term : Term} (proper : term.IsProper) :
    ∃ builder : Builder, term.build = .ok (.builder builder) ∧ ∀ value,
      (builder.Accepts value ↔ term.Allows Bound.IsHeeded value) ∧
      (term.EveryBound Bound.IsHeeded → (builder.Accepts value ↔ term.Means value)) := by
  refine ⟨term.builder, build_eq_ok term, fun value => ?_⟩
  have allows : term.builder.Accepts value ↔ term.Allows Bound.IsHeeded value :=
    accepts_of_kind proper (meetsKind_iff term proper value "")
  exact ⟨allows, fun every => allows.trans (allows_iff_means every)⟩

/-- Arrays of texts of three characters at least. -/
theorem accepts_build_iff_texts :
    ∃ term : Term, term.IsProper ∧
      term = .array (.bound true ⟨3.0, rfl, by decide⟩ .string) ∧
      term.EveryBound Bound.IsHeeded ∧
      ∃ builder : Builder, term.build = .ok (.builder builder) ∧ ∀ value,
        (builder.Accepts value ↔ term.Allows Bound.IsHeeded value) ∧
        (term.EveryBound Bound.IsHeeded → (builder.Accepts value ↔ term.Means value)) := by
  have proper : (Term.array (.bound true ⟨3.0, rfl, by decide⟩ .string)).IsProper :=
    ⟨rfl, trivial⟩
  refine ⟨_, proper, rfl, ⟨fun measure about => ?_, trivial⟩, accepts_build_iff proper⟩
  exact .inr (by decide)

/-- A length of ten to the nineteenth is asked for, and one character is enough. -/
theorem accepts_beneath_large_bound :
    ∃ term : Term, term.IsProper ∧
      term = .bound true ⟨10000000000000000000.0, rfl, by decide⟩ .string ∧
      ∃ builder : Builder, term.build = .ok (.builder builder) ∧
        builder.Accepts (.string "a") ∧ ¬ term.Means (.string "a") := by
  have proper : (Term.bound true ⟨10000000000000000000.0, rfl, by decide⟩ .string).IsProper :=
    ⟨rfl, trivial⟩
  refine ⟨_, proper, rfl, _, rfl, rfl, fun means => ?_⟩
  have within := means.2 .length rfl true _ rfl trivial 1 rfl
  exact absurd within (by decide)

end Term

end PromptMarkup.Schema
