/-
**Modifiers of schemas under construction.**

A builder that may be null besides is made in two ways. Where it declares a single type, null
becomes another type and the other keywords stay; else the schema becomes one option and null the
other. Bounds and `int` look at the type that is declared, so that they go by another keyword, or
take null away again, behind `nullable`.

* `Builder.Accepts`, `Builder.calls`: what a builder allows, and methods called in a row;
* `Builder.ToleratesNull`: the keywords of a builder besides its type allow null;
* `accepts_nullable_iff`: when `nullable` adds null and nothing else;
* `modifiers_commute_iff`: when `nullable` may change places with a bound and with `int`.
-/

import PromptMarkup.Proofs.Schema.Acceptance
import PromptMarkup.Proofs.Schema.Making

namespace PromptMarkup.Schema

/-! ### Builders -/

namespace Builder

/-- A value violates nothing of the schema that has been built. -/
def Accepts (builder : Builder) (value : Json) : Prop := Schema.Accepts builder.schema value ""

/-- The builder that some methods give, called in a row with their arguments. -/
def calls (builder : Builder) : List (String × List Value) → Except ExprError Builder
  | [] => .ok builder
  | (method, args) :: rest => do
    match ← builderMethod builder method args with
    | .builder next => next.calls rest
    | _ => .error (.unknownMethod "schema" method)

/-- The keywords of a builder besides its type allow null. -/
structure ToleratesNull (builder : Builder) : Prop where
  enum : ∀ options, builder.fields.lookup "enum" = some (.array options) → .null ∈ options
  const : ∀ expected, builder.fields.lookup "const" = some expected → expected = .null
  anyOf : ∀ options, builder.fields.lookup "anyOf" = some (.array options) →
    ∃ option ∈ options, Schema.Accepts option .null ""

end Builder

variable {builder : Builder} {name : String} {value : Json} {path : String}

theorem accepts_iff : builder.Accepts value ↔ Meets builder.fields value "" := accepts_object_iff

/-! ### Types -/

theorem hasType_null_iff : hasType "null" value = true ↔ value = .null := by
  cases value <;> simp [hasType, typeOf]

theorem same_null_iff {json : Json} : json.same .null = true ↔ json = .null := by
  cases json <;> simp [Json.same]

theorem lookup_type_of_declaredType (declared : builder.declaredType = some name) :
    builder.fields.lookup "type" = some (.string name) := by
  obtain ⟨setting, found, text⟩ := Option.bind_eq_some_iff.mp declared
  rw [found, string?_eq_some_iff.mp text]

theorem typeAllows_string_iff : TypeAllows (.string name) value ↔ hasType name value = true := by
  simp [TypeAllows, allowedTypes]

/-- Null besides another type. -/
theorem typeAllows_nullable_iff :
    TypeAllows (.array [.string name, .string "null"]) value ↔
      hasType name value = true ∨ value = .null := by
  simp [TypeAllows, allowedTypes, Json.string?, hasType_null_iff]

/-- **A builder of a single type allows what is of that type and meets its other keywords.** -/
theorem accepts_iff_of_declaredType (declared : builder.declaredType = some name) :
    builder.Accepts value ↔
      hasType name value = true ∧ Meets (Fields.erase "type" builder.fields) value "" := by
  rw [accepts_iff, meets_iff_apart .type rfl]
  refine and_congr ?_ Iff.rfl
  simp [Keyword.Asks, lookup_type_of_declaredType declared, typeAllows_string_iff]

/-- What another type changes. -/
theorem accepts_set_type_iff (declared : Json) :
    (builder.set "type" declared).Accepts value ↔
      TypeAllows declared value ∧ Meets (Fields.erase "type" builder.fields) value "" := by
  rw [accepts_iff, meets_iff_apart .type rfl]
  refine and_congr ?_ ?_
  · simp [Keyword.Asks, Builder.set, Fields.lookup_insert_self]
  · rw [Builder.set, Fields.erase_insert_self]

/-! ### Null -/

theorem nullable_of_declaredType (declared : builder.declaredType = some name) :
    builder.nullable = builder.set "type" (.array [.string name, .string "null"]) := by
  simp only [Builder.nullable, lookup_type_of_declaredType declared]

/-- A single type becomes one of two, and the other keywords stay. -/
theorem accepts_nullable_of_declaredType (declared : builder.declaredType = some name) :
    builder.nullable.Accepts value ↔ (hasType name value = true ∨ value = .null) ∧
      Meets (Fields.erase "type" builder.fields) value "" := by
  rw [nullable_of_declaredType declared, accepts_set_type_iff, typeAllows_nullable_iff]

/-- Without a single type, the schema becomes one of two options. -/
theorem accepts_nullable_of_untyped (untyped : builder.declaredType = none) :
    builder.nullable.Accepts value ↔ value = .null ∨ builder.Accepts value := by
  have fields : builder.nullable.fields =
      [("anyOf", .array [builder.schema, .object [("type", .string "null")]])] := by
    unfold Builder.nullable
    split
    next name found => simp [Builder.declaredType, found, Json.string?] at untyped
    next => rfl
  have isNull : Schema.Accepts (.object [("type", .string "null")]) value "" ↔ value = .null := by
    rw [accepts_object_iff, meets_iff_of_names ["type"] rfl [.type] (by decide)]
    simp [Keyword.Asks, typeAllows_string_iff, hasType_null_iff]
  rw [accepts_iff, fields, meets_iff_of_names ["anyOf"] rfl [.anyOf] (by decide)]
  simp [Keyword.Asks, isNull, Builder.Accepts, or_comm]

/-- What null has to do with the keywords besides the type. -/
theorem toleratesNull_iff :
    builder.ToleratesNull ↔ Meets (Fields.erase "type" builder.fields) .null "" := by
  have kept : ∀ key ≠ "type",
      (Fields.erase "type" builder.fields).lookup key = builder.fields.lookup key :=
    fun key different => Fields.lookup_erase_of_ne different builder.fields
  constructor
  · intro tolerates keyword
    cases keyword with
    | type => simp [Keyword.Asks, Fields.lookup_erase_self]
    | enum =>
      intro options found
      exact ⟨.null, tolerates.enum options (kept "enum" (by decide) ▸ found), rfl⟩
    | const =>
      intro expected found
      exact same_null_iff.mpr (tolerates.const expected (kept "const" (by decide) ▸ found))
    | anyOf =>
      intro options found
      exact tolerates.anyOf options (kept "anyOf" (by decide) ▸ found)
    | bound measure lower => cases measure <;> 
      simp [Keyword.Asks, Measure.Meets, Measure.count?, Json.number?]
    | _ => simp [Keyword.Asks]
  · intro meets
    refine ⟨fun options found => ?_, fun expected found => ?_, fun options found => ?_⟩
    · obtain ⟨option, member, same⟩ := meets .enum options (kept "enum" (by decide) ▸ found)
      exact same_null_iff.mp same ▸ member
    · exact same_null_iff.mp (meets .const expected (kept "const" (by decide) ▸ found))
    · exact meets .anyOf options (kept "anyOf" (by decide) ▸ found)

/-- **When `nullable` adds null and nothing else.** It always does where the builder does not
declare a single type; else null has to meet the keywords that stay. -/
theorem accepts_nullable_iff (builder : Builder) (args : List Value) (value : Json) :
    ∃ nullable, builderMethod builder "nullable" args = .ok (.builder nullable) ∧
      ((nullable.Accepts value ↔ value = .null ∨ builder.Accepts value) ↔
        (value = .null → builder.declaredType = none ∨ builder.ToleratesNull)) := by
  refine ⟨builder.nullable, rfl, ?_⟩
  cases declared : builder.declaredType with
  | none => simp [accepts_nullable_of_untyped declared]
  | some name =>
    rw [accepts_nullable_of_declaredType declared, accepts_iff_of_declaredType declared,
      toleratesNull_iff]
    by_cases null : value = .null
    · simp [null]
    · simp [null]

/-- Null is not added to the strings of a list. -/
theorem not_accepts_nullable_textList :
    ∃ builder : Builder, builder.IsMade ∧ namespaceMethod "enum" [.array [.string "a"]] =
      .ok (.builder builder) ∧ ¬ builder.nullable.Accepts .null := by
  have made : (enumOf [.string "a"]).IsMade :=
    @Builder.IsMade.ofNamespace "enum" [.array [.string "a"]] _
      (fun _ inside => by cases inside) rfl
  exact ⟨_, made, rfl, nofun⟩

/-! ### Bounds -/

namespace Measure

/-- What a bound counts in values of a type. -/
def ofType : Option String → Measure
  | some "string" => length
  | some "array" => items
  | _ => .value

theorem boundKey_eq (declared : Option String) (lower : Bool) :
    Builder.boundKey declared lower = (ofType declared).key lower := by
  cases declared with
  | none => cases lower <;> rfl
  | some name =>
    by_cases string : name = "string"
    · subst string
      cases lower <;> rfl
    by_cases array : name = "array"
    · subst array
      cases lower <;> rfl
    cases lower <;> simp [Builder.boundKey, ofType, key, string, array]

/-- A value that a bound has nothing to count in. -/
def Skips (measure : Measure) (json : Json) : Prop :=
  measure.count? json = none ∧ (measure = .value → json.number? = none)

theorem Skips.meets {measure : Measure} {json : Json} (skips : measure.Skips json) (lower : Bool)
    (setting : Json) : measure.Meets lower setting json := by
  cases measure <;> simp_all [Skips, Meets]

end Measure

theorem withBound_eq (builder : Builder) (lower : Bool) (bound : Float) :
    builder.withBound lower bound = builder.set
      ((Measure.ofType builder.declaredType).key lower) (Builder.boundJson bound) := by
  rw [Builder.withBound, Measure.boundKey_eq]

/-- **A bound that has nothing to count changes nothing.** -/
theorem accepts_set_bound_iff {measure : Measure} (skips : measure.Skips value) (lower : Bool)
    (setting : Json) : (builder.set (measure.key lower) setting).Accepts value ↔
      builder.Accepts value := by
  have asks : ∀ fields, (Keyword.bound measure lower).Asks fields value "" :=
    fun fields setting _ => skips.meets lower setting
  have apart : ∀ fields, Meets fields value "" ↔
      Meets (Fields.erase (measure.key lower) fields) value "" := by
    intro fields
    rw [meets_iff_apart (.bound measure lower) rfl]
    exact and_iff_right (asks fields)
  rw [accepts_iff, accepts_iff, apart, Builder.set, Fields.erase_insert_self, ← apart]

/-! ### Order -/

section Order

theorem declaredType_set {key : String} (different : "type" ≠ key) (setting : Json) :
    (builder.set key setting).declaredType = builder.declaredType := by
  unfold Builder.declaredType Builder.set
  rw [Fields.lookup_insert_of_ne different]

theorem Measure.type_ne_key (measure : Measure) (lower : Bool) : "type" ≠ measure.key lower := by
  cases measure <;> cases lower <;> decide

variable (declared : builder.declaredType = some name) (lower : Bool) (bound : Float)
include declared

/-- Behind `nullable` a bound is one of a number. -/
theorem withBound_nullable :
    builder.nullable.withBound lower bound =
      builder.nullable.set (Measure.value.key lower) (Builder.boundJson bound) := by
  have untyped : builder.nullable.declaredType = none := by
    rw [nullable_of_declaredType declared]
    simp [Builder.declaredType, Builder.set, Fields.lookup_insert_self, Json.string?]
  rw [withBound_eq, untyped]
  rfl

/-- In front of `nullable` a bound is one of the type. -/
theorem declaredType_withBound : (builder.withBound lower bound).declaredType = some name := by
  rw [withBound_eq, declaredType_set (Measure.type_ne_key _ _), declared]

/-- A bound in front of `nullable` is set beside the two types. -/
theorem accepts_withBound_nullable :
    (builder.withBound lower bound).nullable.Accepts value ↔
      (builder.nullable.set ((Measure.ofType (some name)).key lower)
        (Builder.boundJson bound)).Accepts value := by
  rw [nullable_of_declaredType (declaredType_withBound declared lower bound),
    nullable_of_declaredType declared, withBound_eq, declared, accepts_iff, accepts_iff]
  exact meets_congr (Fields.lookup_insert_comm (Measure.type_ne_key _ lower) _ _ builder.fields)

/-- **A bound of a number** may stand on either side of `nullable`. -/
theorem accepts_bound_comm_of_value (number : Measure.ofType (some name) = .value) :
    (builder.nullable.withBound lower bound).Accepts value ↔
      (builder.withBound lower bound).nullable.Accepts value := by
  rw [withBound_nullable declared, accepts_withBound_nullable declared, number]

/-- Only values of the type and null are allowed behind `nullable`, whatever bound there is. -/
theorem not_accepts_set_nullable (other : hasType name value = false) (some : value ≠ .null)
    (measure : Measure) (setting : Json) :
    ¬ (builder.nullable.set (measure.key lower) setting).Accepts value := by
  intro accepts
  have typed : (builder.nullable.set (measure.key lower) setting).fields.lookup "type" =
      .some (.array [.string name, .string "null"]) := by
    rw [nullable_of_declaredType declared, Builder.set, Builder.set,
      Fields.lookup_insert_of_ne (Measure.type_ne_key measure lower), Fields.lookup_insert_self]
  rcases typeAllows_nullable_iff.mp (accepts_iff.mp accepts .type _ typed) with type | null
  · rw [other] at type
    cases type
  · exact some null

/-- **A bound of another type** that stands behind `nullable` changes nothing, so that it may stand
there just where it does not count. -/
theorem accepts_bound_comm_iff
    (plain : hasType name value = true → value.number? = none) :
    ((builder.nullable.withBound lower bound).Accepts value ↔
      (builder.withBound lower bound).nullable.Accepts value) ↔
    (hasType name value = true →
      (builder.Accepts value ↔ (builder.withBound lower bound).Accepts value)) := by
  rw [withBound_nullable declared]
  cases type : hasType name value with
  | true =>
    have skips : Measure.value.Skips value := ⟨by cases value <;> rfl, fun _ => plain type⟩
    rw [accepts_set_bound_iff skips, accepts_nullable_of_declaredType declared,
      accepts_nullable_of_declaredType (declaredType_withBound declared lower bound),
      accepts_iff_of_declaredType declared,
      accepts_iff_of_declaredType (declaredType_withBound declared lower bound)]
    simp [type]
  | false =>
    rw [accepts_withBound_nullable declared]
    by_cases null : value = .null
    · have skips : ∀ measure : Measure, measure.Skips value := by
        subst null
        exact fun measure => ⟨by cases measure <;> rfl, fun _ => rfl⟩
      rw [accepts_set_bound_iff (skips _), accepts_set_bound_iff (skips _)]
      simp
    · simp [not_accepts_set_nullable declared lower type null]

/-- **`int` behind `nullable` takes null away again.** -/
theorem accepts_int_comm_iff :
    ((builder.nullable.set "type" (.string "integer")).Accepts value ↔
      (builder.set "type" (.string "integer")).nullable.Accepts value) ↔
    (value = .null → ¬ builder.ToleratesNull) := by
  have whole : (builder.set "type" (.string "integer")).declaredType = some "integer" := by
    simp [Builder.declaredType, Builder.set, Fields.lookup_insert_self, Json.string?]
  have kept : ∀ declared, Fields.erase "type" (builder.set "type" declared).fields =
      Fields.erase "type" builder.fields :=
    fun declared => Fields.erase_insert_self "type" declared builder.fields
  rw [accepts_set_type_iff, typeAllows_string_iff, accepts_nullable_of_declaredType whole,
    nullable_of_declaredType declared, kept, kept, toleratesNull_iff]
  by_cases null : value = .null
  · subst null
    simp [hasType, typeOf]
  · simp [null]

end Order

/-- A setting of another keyword leaves it so that a builder of numbers neither lists values nor has
options. -/
theorem unset_insert {fields : List (String × Json)} {name : String} {setting : Json}
    (other : name ∉ ["type", "enum", "const", "anyOf"])
    (unset : fields.lookup "type" = some (.string "number") →
      ∀ key ∈ ["enum", "const", "anyOf"], fields.lookup key = none)
    (number : (Fields.insert name setting fields).lookup "type" = some (.string "number")) :
    ∀ key ∈ ["enum", "const", "anyOf"], (Fields.insert name setting fields).lookup key = none := by
  have kept : ∀ key ∈ ["type", "enum", "const", "anyOf"],
      (Fields.insert name setting fields).lookup key = fields.lookup key := by
    intro key listed
    have different : key ≠ name := fun same => other (same ▸ listed)
    exact Fields.lookup_insert_of_ne different _ _
  rw [kept "type" (by decide)] at number
  intro key listed
  rw [kept key (List.mem_cons_of_mem _ listed), unset number key listed]

/-- A builder of numbers neither lists values nor has options. -/
theorem IsBuilt.unset_of_number {fields : List (String × Json)} (built : IsBuilt fields)
    (number : fields.lookup "type" = some (.string "number")) :
    ∀ key ∈ ["enum", "const", "anyOf"], fields.lookup key = none := by
  induction built with
  | typed _ => simp [Builder.typed, Builder.ofFields, List.lookup_cons]
  | any => cases number
  | array _ _ => simp [Builder.arrayOf, Builder.ofFields] at number
  | object _ _ => simp [objectOf, Builder.ofFields] at number
  | enum values =>
    unfold enumOf at number
    split at number <;> simp [Builder.ofFields, List.lookup_cons] at number
  | literal value => cases number
  | union _ _ => cases number
  | describe _ text unset => exact unset_insert (by decide) unset number
  | nullable _ _ =>
    unfold Builder.nullable at number
    split at number
    · simp [Builder.set, Fields.lookup_insert_self] at number
    · cases number
  | int _ _ => simp [Builder.set, Fields.lookup_insert_self] at number
  | @bound builder _ lower bound unset =>
    rw [withBound_eq] at number ⊢
    refine unset_insert ?_ unset number
    cases Measure.ofType builder.declaredType <;> cases lower <;> decide

theorem Builder.IsMade.toleratesNull (made : builder.IsMade)
    (number : builder.declaredType = some "number") : builder.ToleratesNull := by
  have unset := made.isBuilt.unset_of_number (lookup_type_of_declaredType number)
  refine ⟨?_, ?_, ?_⟩
  · simp [unset "enum" (by decide)]
  · simp [unset "const" (by decide)]
  · simp [unset "anyOf" (by decide)]

/-- The method that sets the lower or the upper bound. -/
def boundMethod (lower : Bool) : String := if lower then "min" else "max"

/-- **When `nullable` may change places with a bound and with `int`.** A bound of a number may
always stand on either side of it. A bound of a string or an array that stands behind `nullable` is
not heeded, so that the order matters for the strings and arrays that the bound keeps out or lets
in. Behind `nullable`, `int` takes null away from every builder of numbers, and changes nothing
else. -/
theorem modifiers_commute_iff (builder : Builder) (value : Json) :
    (∀ (lower : Bool) (bound : Float), ∃ bounded inner outer : Builder,
      builder.calls [(boundMethod lower, [.number bound])] = .ok bounded ∧
      builder.calls [(boundMethod lower, [.number bound]), ("nullable", [])] = .ok inner ∧
      builder.calls [("nullable", []), (boundMethod lower, [.number bound])] = .ok outer ∧
      (builder.declaredType = some "number" ∨ builder.declaredType = some "integer" →
        (outer.Accepts value ↔ inner.Accepts value)) ∧
      (builder.declaredType = some "string" →
        ((outer.Accepts value ↔ inner.Accepts value) ↔
          ∀ text, value = .string text → (builder.Accepts value ↔ bounded.Accepts value))) ∧
      (builder.declaredType = some "array" →
        ((outer.Accepts value ↔ inner.Accepts value) ↔
          ∀ items, value = .array items → (builder.Accepts value ↔ bounded.Accepts value)))) ∧
    ∃ inner outer : Builder,
      builder.calls [("int", []), ("nullable", [])] = .ok inner ∧
      builder.calls [("nullable", []), ("int", [])] = .ok outer ∧
      (builder.IsMade → builder.declaredType = some "number" →
        ((outer.Accepts value ↔ inner.Accepts value) ↔ value ≠ .null)) := by
  have isString : hasType "string" value = true ↔ ∃ text, value = .string text := by
    cases value <;> simp [hasType, typeOf]
  have isArray : hasType "array" value = true ↔ ∃ items, value = .array items := by
    cases value <;> simp [hasType, typeOf]
  refine ⟨fun lower bound => ?_, ?_⟩
  · refine ⟨builder.withBound lower bound, (builder.withBound lower bound).nullable,
      builder.nullable.withBound lower bound, ?_, ?_, ?_, ?_, fun string => ?_, fun array => ?_⟩
    · cases lower <;> rfl
    · cases lower <;> rfl
    · cases lower <;> rfl
    · rintro (number | integer)
      · exact accepts_bound_comm_of_value number lower bound rfl
      · exact accepts_bound_comm_of_value integer lower bound rfl
    · rw [accepts_bound_comm_iff string lower bound, isString, forall_exists_index]
      intro type
      obtain ⟨text, rfl⟩ := isString.mp type
      rfl
    · rw [accepts_bound_comm_iff array lower bound, isArray, forall_exists_index]
      intro type
      obtain ⟨items, rfl⟩ := isArray.mp type
      rfl
  · refine ⟨(builder.set "type" (.string "integer")).nullable,
      builder.nullable.set "type" (.string "integer"), rfl, rfl, fun made number => ?_⟩
    rw [accepts_int_comm_iff number, imp_not_comm]
    exact ⟨fun never => never (made.toleratesNull number), fun never _ => never⟩

/-- A string that is too short is allowed when the bound stands behind `nullable`. -/
theorem accepts_short_behind_nullable :
    ∃ builder inner outer : Builder, builder.IsMade ∧
      namespaceMethod "string" [] = .ok (.builder builder) ∧
      builder.calls [("min", [.number 3.0]), ("nullable", [])] = .ok inner ∧
      builder.calls [("nullable", []), ("min", [.number 3.0])] = .ok outer ∧
      ¬ inner.Accepts (.string "ab") ∧ outer.Accepts (.string "ab") := by
  have made : (Builder.typed "string").IsMade :=
    @Builder.IsMade.ofNamespace "string" [] _ (fun _ inside => by cases inside) rfl
  exact ⟨_, _, _, made, rfl, rfl, rfl, nofun, rfl⟩

end PromptMarkup.Schema
