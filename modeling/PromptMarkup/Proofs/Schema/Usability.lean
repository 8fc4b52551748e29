/-
**Schemas that expressions build are schemas.**

Whatever is called on the namespace `z` and on what it gives, a schema under construction is a
schema document at every step: the keywords that are checked are set to what the check asks for, and
no method spoils one.

* `IsSchema`, `IsSound`: a document passes the check, and the settings that make one pass;
* `isSchema_object`: fields with sound settings are a schema;
* `IsBuilt.isSound`: the settings of builders are sound;
* `ofValue_of_isMade`: a builder that has been made is a usable schema.
-/

import PromptMarkup.Proofs.Schema.Making

namespace PromptMarkup.Schema

/-! ### The check -/

/-- A document passes the check, wherever it stands. -/
def IsSchema (schema : Json) : Prop := ∀ path, checkStructure path schema = .ok ()

/-- The setting of `type` names types that are known. -/
def NamesTypes (declared : Json) : Prop :=
  ∀ name ∈ listedTypes declared, ∃ text ∈ typeNames, name = .string text

/-- The settings of the fields of a schema, as they are checked. -/
structure IsSound (fields : List (String × Json)) : Prop where
  type : ∀ declared ∈ fields.lookup "type", NamesTypes declared
  properties : ∀ setting ∈ fields.lookup "properties",
    ∃ named, setting = .object named ∧ ∀ field ∈ named, IsSchema field.2
  required : ∀ setting ∈ fields.lookup "required", ∃ names : List String,
    setting = .array (names.map .string)
  schemas : ∀ key ∈ ["items", "additionalProperties"], ∀ schema ∈ fields.lookup key,
    IsSchema schema
  options : ∀ key ∈ ["anyOf", "oneOf", "allOf"], ∀ setting ∈ fields.lookup key,
    ∃ options, setting = .array options ∧ ∀ option ∈ options, IsSchema option
  enum : ∀ setting ∈ fields.lookup "enum", ∃ values, setting = .array values

section Check

variable {key path : String} {fields : List (String × Json)}

theorem checkTypes_eq_ok {declared : Option Json}
    (known : ∀ setting ∈ declared, NamesTypes setting) : checkTypes path declared = .ok () := by
  have none : (declared.elim [] listedTypes).find? (fun name =>
      !(name.string?).any fun text => typeNames.contains text) = none := by
    rw [List.find?_eq_none]
    intro name member
    cases declared with
    | none => cases member
    | some setting =>
      obtain ⟨text, listed, rfl⟩ := known setting rfl name member
      simpa [Json.string?] using listed
  rw [checkTypes, none]

theorem checkRequired_eq_ok {required : Option Json}
    (texts : ∀ setting ∈ required, ∃ names : List String, setting = .array (names.map .string)) :
    checkRequired path required = .ok () := by
  cases required with
  | none => rfl
  | some setting =>
    obtain ⟨names, rfl⟩ := texts setting rfl
    have strings : ((names.map Json.string).all fun item => item.string?.isSome) = true := by
      simp [Json.string?]
    rw [checkRequired, if_pos strings]

theorem checkAt_eq_ok (sound : ∀ schema ∈ fields.lookup key, IsSchema schema) :
    checkAt key path fields = .ok () := by
  induction fields with
  | nil => rfl
  | cons field rest ih =>
    obtain ⟨name, value⟩ := field
    rw [checkAt]
    split
    next same => exact sound value (by simp [same]) _
    next different =>
      refine ih fun schema found => sound schema ?_
      rwa [List.lookup_cons, beq_false_of_ne (Ne.symm different)]

theorem checkNamed_eq_ok {named : List (String × Json)}
    (sound : ∀ field ∈ named, IsSchema field.2) : checkNamed path named = .ok () := by
  induction named generalizing path with
  | nil => rfl
  | cons field rest ih =>
    rw [checkNamed, sound field List.mem_cons_self]
    exact ih fun other member => sound other (List.mem_cons_of_mem _ member)

theorem checkListed_eq_ok {options : List Json} (sound : ∀ option ∈ options, IsSchema option)
    (index : Nat) : checkListed path index options = .ok () := by
  induction options generalizing index with
  | nil => rfl
  | cons option rest ih =>
    rw [checkListed, sound option List.mem_cons_self]
    exact ih (fun other member => sound other (List.mem_cons_of_mem _ member)) (index + 1)

theorem checkProperties_eq_ok (sound : ∀ setting ∈ fields.lookup "properties",
    ∃ named, setting = .object named ∧ ∀ field ∈ named, IsSchema field.2) :
    checkProperties path fields = .ok () := by
  induction fields with
  | nil => rfl
  | cons field rest ih =>
    obtain ⟨name, value⟩ := field
    by_cases same : name = "properties"
    · obtain ⟨named, rfl, schemas⟩ := sound value (by simp [same])
      rw [checkProperties, if_pos same]
      exact checkNamed_eq_ok schemas
    · have later : checkProperties path ((name, value) :: rest) = checkProperties path rest := by
        cases value <;> simp [checkProperties, same]
      rw [later]
      refine ih fun setting found => sound setting ?_
      rwa [List.lookup_cons, beq_false_of_ne (Ne.symm same)]

theorem checkOptions_eq_ok (sound : ∀ setting ∈ fields.lookup key,
    ∃ options, setting = .array options ∧ ∀ option ∈ options, IsSchema option) :
    checkOptions key path fields = .ok () := by
  induction fields with
  | nil => rfl
  | cons field rest ih =>
    obtain ⟨name, value⟩ := field
    by_cases same : name = key
    · obtain ⟨options, rfl, schemas⟩ := sound value (by simp [same])
      rw [checkOptions, if_pos same]
      exact checkListed_eq_ok schemas 0
    · have later : checkOptions key path ((name, value) :: rest) = checkOptions key path rest := by
        cases value <;> simp [checkOptions, same]
      rw [later]
      refine ih fun setting found => sound setting ?_
      rwa [List.lookup_cons, beq_false_of_ne (Ne.symm same)]

theorem checkEnum_eq_ok {values : Option Json}
    (list : ∀ setting ∈ values, ∃ values, setting = .array values) :
    checkEnum path values = .ok () := by
  cases values with
  | none => rfl
  | some setting =>
    obtain ⟨values, rfl⟩ := list setting rfl
    rfl

/-- Everything or nothing. -/
theorem isSchema_bool (allowed : Bool) : IsSchema (.bool allowed) := fun _ => rfl

/-- **Fields with sound settings are a schema.** -/
theorem isSchema_object (sound : IsSound fields) : IsSchema (.object fields) := by
  intro path
  rw [checkStructure, checkTypes_eq_ok sound.type, checkProperties_eq_ok sound.properties,
    checkRequired_eq_ok sound.required, checkAt_eq_ok (sound.schemas "items" (by decide)),
    checkAt_eq_ok (sound.schemas "additionalProperties" (by decide)),
    checkOptions_eq_ok (sound.options "anyOf" (by decide)),
    checkOptions_eq_ok (sound.options "oneOf" (by decide)),
    checkOptions_eq_ok (sound.options "allOf" (by decide)), checkEnum_eq_ok sound.enum]
  rfl

end Check

/-! ### Fields that are set -/

/-- The keywords that are checked besides the type. -/
def checkedKeys : List String :=
  ["properties", "required", "items", "additionalProperties", "anyOf", "oneOf", "allOf", "enum"]

section Fields

variable {fields others : List (String × Json)} {key : String}

/-- Only the settings of keywords that are checked count. -/
theorem IsSound.of_kept (sound : IsSound fields)
    (types : ∀ declared ∈ others.lookup "type", NamesTypes declared)
    (kept : ∀ key ∈ checkedKeys, others.lookup key = fields.lookup key) : IsSound others := by
  refine ⟨types, ?_, ?_, fun key listed => ?_, fun key listed => ?_, ?_⟩
  · exact kept "properties" (by decide) ▸ sound.properties
  · exact kept "required" (by decide) ▸ sound.required
  · have inside : ∀ key ∈ ["items", "additionalProperties"], key ∈ checkedKeys := by decide
    exact kept key (inside key listed) ▸ sound.schemas key listed
  · have inside : ∀ key ∈ ["anyOf", "oneOf", "allOf"], key ∈ checkedKeys := by decide
    exact kept key (inside key listed) ▸ sound.options key listed
  · exact kept "enum" (by decide) ▸ sound.enum

/-- A field that is not checked may be set to anything. -/
theorem IsSound.insert (sound : IsSound fields) (free : key ∉ "type" :: checkedKeys)
    (value : Json) : IsSound (Fields.insert key value fields) := by
  have kept : ∀ other ∈ "type" :: checkedKeys,
      (Fields.insert key value fields).lookup other = fields.lookup other := by
    intro other checked
    refine Fields.lookup_insert_of_ne ?_ value fields
    rintro rfl
    exact free checked
  refine sound.of_kept ?_ fun other checked => kept other (List.mem_cons_of_mem _ checked)
  rw [kept "type" List.mem_cons_self]
  exact sound.type

/-- The type may be set to types that are known. -/
theorem IsSound.insert_type (sound : IsSound fields) {declared : Json}
    (known : NamesTypes declared) : IsSound (Fields.insert "type" declared fields) := by
  have apart : ∀ key ∈ checkedKeys, key ≠ "type" := by decide
  refine sound.of_kept ?_ fun key checked =>
    Fields.lookup_insert_of_ne (apart key checked) declared fields
  rw [Fields.lookup_insert_self]
  rintro _ ⟨⟩
  exact known

theorem namesTypes_string {name : String} (known : name ∈ typeNames) :
    NamesTypes (.string name) := by
  intro other member
  rw [List.mem_singleton.mp member]
  exact ⟨name, known, rfl⟩

theorem namesTypes_nullable {name : String} (known : name ∈ typeNames) :
    NamesTypes (.array [.string name, .string "null"]) := by
  intro other member
  rcases List.mem_cons.mp member with rfl | last
  · exact ⟨name, known, rfl⟩
  · exact ⟨"null", by decide, List.mem_singleton.mp last⟩

/-- Fields of which none is checked. -/
theorem isSound_of_free (free : ∀ key ∈ "type" :: checkedKeys, fields.lookup key = none) :
    IsSound fields := by
  have sound : IsSound [] := by constructor <;> simp
  refine sound.of_kept ?_ fun key checked => free key (List.mem_cons_of_mem _ checked)
  rw [free "type" List.mem_cons_self]
  rintro _ ⟨⟩

end Fields

/-! ### What methods make -/

/-- The schema of one of the named types. -/
theorem isSound_typed {name : String} (known : name ∈ typeNames) :
    IsSound (Builder.typed name).fields := by
  constructor <;> simp [Builder.typed, Builder.ofFields, List.lookup_cons]
  exact namesTypes_string known

theorem isSound_arrayOf {item : Builder} (sound : IsSound item.fields) :
    IsSound (Builder.arrayOf item).fields := by
  constructor <;> simp [Builder.arrayOf, Builder.ofFields, List.lookup_cons]
  · exact namesTypes_string (by decide)
  · exact isSchema_object sound

/-- Schemas that are options. -/
theorem isSound_anyOf {options : List Json} (schemas : ∀ option ∈ options, IsSchema option) :
    IsSound [("anyOf", .array options)] := by
  constructor <;> simp [List.lookup_cons]
  exact schemas

theorem isSound_nullable {builder : Builder} (sound : IsSound builder.fields) :
    IsSound builder.nullable.fields := by
  unfold Builder.nullable
  split
  next name found =>
    obtain ⟨text, known, same⟩ := sound.type _ found _ (List.mem_singleton_self _)
    cases same
    exact sound.insert_type (namesTypes_nullable known)
  next =>
    refine isSound_anyOf fun option member => ?_
    rcases List.mem_cons.mp member with rfl | last
    · exact isSchema_object sound
    · exact List.mem_singleton.mp last ▸ isSchema_object (isSound_typed (by decide))

theorem isSound_objectOf {properties : List (String × Builder)}
    (sound : ∀ property ∈ properties, IsSound property.2.fields) :
    IsSound (objectOf properties).fields := by
  refine ⟨?type, ?properties, ?required, ?schemas, ?options, ?enum⟩
  case type =>
    rintro _ ⟨⟩
    exact namesTypes_string (by decide)
  case properties =>
    rintro _ ⟨⟩
    refine ⟨_, rfl, List.forall_mem_map.mpr fun property member => ?_⟩
    exact isSchema_object (sound property member)
  case required =>
    rintro _ ⟨⟩
    exact ⟨(properties.filter fun property => !property.2.optional).map Prod.fst, by simp⟩
  case schemas =>
    simpa [objectOf, Builder.ofFields, List.lookup_cons] using isSchema_bool false
  case options => simp [objectOf, Builder.ofFields, List.lookup_cons]
  case enum => simp [objectOf, Builder.ofFields, List.lookup_cons]

theorem isSound_enumOf (values : List Json) : IsSound (enumOf values).fields := by
  unfold enumOf
  split
  · constructor <;> simp [Builder.ofFields, List.lookup_cons]
    exact namesTypes_string (by decide)
  · constructor <;> simp [Builder.ofFields, List.lookup_cons]

/-- A bound may be set to anything. -/
theorem boundKey_not_checked (declared : Option String) (lower : Bool) :
    Builder.boundKey declared lower ∉ "type" :: checkedKeys := by
  unfold Builder.boundKey
  split <;> decide

/-- **The settings of a builder are sound, however it comes about.** -/
theorem IsBuilt.isSound {fields : List (String × Json)} (built : IsBuilt fields) :
    IsSound fields := by
  induction built with
  | typed known => exact isSound_typed known
  | any => exact isSound_of_free fun _ _ => rfl
  | array _ sound => exact isSound_arrayOf sound
  | object _ sound => exact isSound_objectOf sound
  | enum values => exact isSound_enumOf values
  | literal value => exact isSound_of_free (by simp [checkedKeys, List.lookup_cons])
  | union _ sound =>
    refine isSound_anyOf fun schema member => ?_
    obtain ⟨option, listed, rfl⟩ := List.mem_map.mp member
    exact isSchema_object (sound option listed)
  | describe _ text sound => exact sound.insert (by decide) _
  | nullable _ sound => exact isSound_nullable sound
  | int _ sound => exact sound.insert_type (namesTypes_string (by decide))
  | bound _ lower bound sound => exact sound.insert (boundKey_not_checked _ lower) _

/-- **Every builder that the namespace and its methods make is a usable schema.** -/
theorem ofValue_of_isMade {builder : Builder} (made : builder.IsMade) :
    SchemaDocument.ofValue (.builder builder) = .ok ⟨builder.schema⟩ := by
  have passes : checkStructure "" builder.schema = .ok () :=
    isSchema_object made.isBuilt.isSound ""
  rw [SchemaDocument.ofValue, SchemaDocument.ofJson, passes]

/-- Null twice over, on whole numbers out of a list that has none. -/
theorem ofValue_of_isMade_nullableTwice :
    ∃ builder : Builder, builder.IsMade ∧
      builder.schema = .object [("anyOf", .array [
        .object [("enum", .array [.bool true, .null]),
          ("type", .array [.string "integer", .string "null"])],
        .object [("type", .string "null")]])] ∧
      SchemaDocument.ofValue (.builder builder) = .ok ⟨builder.schema⟩ := by
  have listed : (enumOf [.bool true, .null]).IsMade :=
    @Builder.IsMade.ofNamespace "enum" [.array [.bool true, .null]] _
      (fun _ inside => by cases inside) rfl
  have whole := @Builder.IsMade.ofMethod _ "int" [] _ listed rfl
  have once := @Builder.IsMade.ofMethod _ "nullable" [] _ whole rfl
  have twice := @Builder.IsMade.ofMethod _ "nullable" [] _ once rfl
  exact ⟨_, twice, rfl, ofValue_of_isMade twice⟩

end PromptMarkup.Schema
