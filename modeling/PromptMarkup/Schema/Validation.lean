/-
**Schemas and the values they allow.**

A schema is a JSON Schema document of which the usual keywords are known. Documents are checked
before they are used, and values are checked against them.

* `checkStructure`: why a document is no schema;
* `SchemaDocument`: a document that has been checked;
* `violations`: what a value violates, each with a JSON pointer to the part at fault;
* `SchemaDocument.validate`: what a value violates of a document.
-/

import PromptMarkup.Json.Printer
import PromptMarkup.Schema.Builder
import PromptMarkup.Text.Cut
import PromptMarkup.Value.Basic

namespace PromptMarkup.Schema

/-! ## Places in a document -/

/-- The pointer to a part of what `path` points to. -/
def pointer (path part : String) : String :=
  path ++ "/" ++ Text.replaceChar '/' "~1" (Text.replaceChar '~' "~0" part)

/-- The pointer as it is shown; the one to the whole document is empty. -/
def shownPointer (path : String) : String := if path.isEmpty then "/" else path

/-- The word for the type of a value. -/
def typeOf : Json → String
  | .null => "null"
  | .bool _ => "boolean"
  | .integer _ => "integer"
  | .float _ => "number"
  | .string _ => "string"
  | .array _ => "array"
  | .object _ => "object"

/-! ## The structure of schemas -/

/-- Why a document is no schema. -/
inductive StructureError where
  | notObject (path found : String)
  | unknownType (path found : String)
  | propertiesNotObject (path : String)
  | requiredNotTexts (path : String)
  | notArray (key path : String)
  deriving DecidableEq, Repr

/-- The words for a document that is no schema. -/
def StructureError.message : StructureError → String
  | notObject path found =>
    "schema at '" ++ shownPointer path ++ "' must be an object, found " ++ found
  | unknownType path found => "unknown type " ++ found ++ " at '" ++ shownPointer path ++ "'"
  | propertiesNotObject path => "'properties' at '" ++ shownPointer path ++ "' must be an object"
  | requiredNotTexts path =>
    "'required' at '" ++ shownPointer path ++ "' must be an array of strings"
  | notArray key path => "'" ++ key ++ "' at '" ++ shownPointer path ++ "' must be an array"

/-- The names of the types. -/
def typeNames : List String :=
  ["string", "number", "integer", "boolean", "object", "array", "null"]

/-- The values that the keyword `type` lists. -/
def listedTypes (declared : Json) : List Json := (declared.array?).getD [declared]

/-- All types that a schema lists have to be known. -/
def checkTypes (path : String) (declared : Option Json) : Except StructureError Unit :=
  match (declared.elim [] listedTypes).find? fun name =>
      !(name.string?).any fun text => typeNames.contains text with
  | some name => .error (.unknownType (pointer path "type") name.compress)
  | none => .ok ()

/-- The properties that a schema requires are listed by their names. -/
def checkRequired (path : String) (required : Option Json) : Except StructureError Unit :=
  match required with
  | none => .ok ()
  | some (.array items) =>
    if items.all fun item => item.string?.isSome then .ok () else .error (.requiredNotTexts path)
  | some _ => .error (.requiredNotTexts path)

/-- The values that a schema allows are listed. -/
def checkEnum (path : String) (values : Option Json) : Except StructureError Unit :=
  match values with
  | none => .ok ()
  | some (.array _) => .ok ()
  | some _ => .error (.notArray "enum" path)

mutual

/-- Checks that a document is a schema. -/
def checkStructure (path : String) : Json → Except StructureError Unit
  | .bool _ => .ok ()
  | .object fields => do
    checkTypes path (fields.lookup "type")
    checkProperties path fields
    checkRequired path (fields.lookup "required")
    checkAt "items" path fields
    checkAt "additionalProperties" path fields
    checkOptions "anyOf" path fields
    checkOptions "oneOf" path fields
    checkOptions "allOf" path fields
    checkEnum path (fields.lookup "enum")
  | other => .error (.notObject path (typeOf other))

/-- Checks the schema under a keyword. -/
def checkAt (key path : String) : List (String × Json) → Except StructureError Unit
  | [] => .ok ()
  | (name, value) :: rest =>
    if name = key then checkStructure (pointer path key) value else checkAt key path rest

/-- Checks the schemas of the properties. -/
def checkProperties (path : String) : List (String × Json) → Except StructureError Unit
  | [] => .ok ()
  | (name, .object properties) :: rest =>
    if name = "properties" then checkNamed (pointer path "properties") properties
    else checkProperties path rest
  | (name, _) :: rest =>
    if name = "properties" then .error (.propertiesNotObject path) else checkProperties path rest

/-- Checks schemas under their names. -/
def checkNamed (path : String) : List (String × Json) → Except StructureError Unit
  | [] => .ok ()
  | (name, value) :: rest => do
    checkStructure (pointer path name) value
    checkNamed path rest

/-- Checks the schemas that a keyword lists. -/
def checkOptions (key path : String) : List (String × Json) → Except StructureError Unit
  | [] => .ok ()
  | (name, .array options) :: rest =>
    if name = key then checkListed (pointer path key) 0 options else checkOptions key path rest
  | (name, _) :: rest =>
    if name = key then .error (.notArray key path) else checkOptions key path rest

/-- Checks schemas under their numbers from `index` on. -/
def checkListed (path : String) (index : Nat) : List Json → Except StructureError Unit
  | [] => .ok ()
  | value :: rest => do
    checkStructure (pointer path (toString index)) value
    checkListed path (index + 1) rest

end

/-! ## Violations -/

/-- A constraint that a value violates. -/
inductive Constraint where
  | nothingAllowed
  | type (names : List String) (found : String)
  | enum (found : Json)
  | const (expected found : Json)
  | minimum (bound : Float) (found : Json)
  | maximum (bound : Float) (found : Json)
  | minLength (bound : Nat)
  | maxLength (bound : Nat)
  | anyOf
  | minItems (bound : Nat)
  | maxItems (bound : Nat)
  | required (name : String)
  | unexpected (name : String)

/-- The words for a constraint that is violated. -/
def Constraint.message : Constraint → String
  | nothingAllowed => "no value is allowed here"
  | type names found => "expected " ++ " or ".intercalate names ++ ", found " ++ found
  | enum found => found.compress ++ " is not one of the allowed values"
  | const expected found => "expected " ++ expected.compress ++ ", found " ++ found.compress
  | minimum bound found =>
    found.compress ++ " is less than the minimum of " ++ Decimal.plainStyle.write bound
  | maximum bound found =>
    found.compress ++ " is greater than the maximum of " ++ Decimal.plainStyle.write bound
  | minLength bound => "string is shorter than " ++ toString bound ++ " characters"
  | maxLength bound => "string is longer than " ++ toString bound ++ " characters"
  | anyOf => "value does not match any of the allowed schemas"
  | minItems bound => "array has fewer than " ++ toString bound ++ " items"
  | maxItems bound => "array has more than " ++ toString bound ++ " items"
  | required name => "missing required property '" ++ name ++ "'"
  | unexpected name => "unexpected property '" ++ name ++ "'"

/-- A constraint that the part of a value at `path` violates. -/
structure Violation where
  path : String
  constraint : Constraint

/-- The violations of a value that stands at a path. -/
abbrev Validator := Json → String → List Violation

/-! ## Constraints on one value -/

/-- A value is of a type. -/
def hasType (name : String) (value : Json) : Bool :=
  match value with
  | .integer _ => name = "integer" || name = "number"
  | .float number => name = "number" || (name = "integer" && Number.isWhole number)
  | other => name = typeOf other

/-- The types that the keyword `type` allows. -/
def allowedTypes : Json → List String
  | .array items => items.filterMap Json.string?
  | .string name => [name]
  | _ => []

/-- The value is of none of the types that a schema allows. -/
def typeViolation? (fields : List (String × Json)) (value : Json) : Option Constraint :=
  let names := (fields.lookup "type").elim [] allowedTypes
  if names.isEmpty || names.any fun name => hasType name value then none
  else some (.type names (typeOf value))

/-- The constraint itself where it is violated. -/
def violated (condition : Bool) (constraint : Constraint) : List Constraint :=
  if condition then [constraint] else []

/-- What is violated of the values that a schema lists. -/
def valueViolations (fields : List (String × Json)) (value : Json) : List Constraint :=
  (match fields.lookup "enum" with
    | some (.array options) => violated (!options.any fun option => option.same value) (.enum value)
    | _ => [])
  ++ match fields.lookup "const" with
    | some expected => violated (!expected.same value) (.const expected value)
    | none => []

/-- What a number violates. -/
def numberViolations (fields : List (String × Json)) (value : Json) : List Constraint :=
  match value.number? with
  | none => []
  | some number =>
    (match (fields.lookup "minimum").bind Json.number? with
      | some bound => violated (number < bound) (.minimum bound value)
      | none => [])
    ++ match (fields.lookup "maximum").bind Json.number? with
      | some bound => violated (bound < number) (.maximum bound value)
      | none => []

/-- What a number of parts violates of the bounds under two keywords. -/
def countViolations (fields : List (String × Json)) (least most : String)
    (tooFew tooMany : Nat → Constraint) (count : Nat) : List Constraint :=
  (match (fields.lookup least).bind Json.natural? with
    | some bound => violated (count < bound) (tooFew bound)
    | none => [])
  ++ match (fields.lookup most).bind Json.natural? with
    | some bound => violated (bound < count) (tooMany bound)
    | none => []

/-- What a string violates. -/
def lengthViolations (fields : List (String × Json)) (value : Json) : List Constraint :=
  match value with
  | .string text => countViolations fields "minLength" "maxLength" .minLength .maxLength text.length
  | _ => []

/-- What the number of items of an array violates. -/
def itemCountViolations (fields : List (String × Json)) (value : Json) : List Constraint :=
  match value with
  | .array items => countViolations fields "minItems" "maxItems" .minItems .maxItems items.length
  | _ => []

/-- The properties that a schema requires and an object does not have. -/
def requiredViolations (fields : List (String × Json)) (value : Json) : List Constraint :=
  match value, fields.lookup "required" with
  | .object members, some (.array names) =>
    ((names.filterMap Json.string?).filter fun name => (members.lookup name).isNone).map
      Constraint.required
  | _, _ => []

/-! ## Constraints on the parts of a value -/

/-- No option allows the value. -/
def optionViolations (options : Option (List Validator)) (value : Json) (path : String) :
    List Constraint :=
  match options with
  | some validators =>
    violated (!validators.any fun validator => (validator value path).isEmpty) .anyOf
  | none => []

/-- What the items of an array violate. -/
def itemViolations (item : Option Validator) (value : Json) (path : String) : List Violation :=
  match item, value with
  | some validator, .array items =>
    items.zipIdx.flatMap fun (item, index) => validator item (pointer path (toString index))
  | _, _ => []

/-- What a property without a schema violates. -/
def additionalViolations (additional : Option Json) (validator : Option Validator) (name : String)
    (value : Json) (path : String) : List Violation :=
  match additional, validator with
  | some (.bool false), _ => [⟨path, .unexpected name⟩]
  | some (.object _), some validator => validator value path
  | _, _ => []

/-- What the properties of an object violate. -/
def propertyViolations (properties : List (String × Validator)) (additional : Option Json)
    (validator : Option Validator) (value : Json) (path : String) : List Violation :=
  match value with
  | .object members => members.flatMap fun (name, member) =>
    match properties.lookup name with
    | some validator => validator member (pointer path name)
    | none => additionalViolations additional validator name member (pointer path name)
  | _ => []

mutual

/-- What a value violates of a schema. A value of a wrong type violates nothing else. -/
def violations : Json → Validator
  | .bool false => fun _ path => [⟨shownPointer path, .nothingAllowed⟩]
  | .object fields => fun value path =>
    let here := fun constraint => (⟨shownPointer path, constraint⟩ : Violation)
    match typeViolation? fields value with
    | some constraint => [here constraint]
    | none =>
      (valueViolations fields value ++ numberViolations fields value
          ++ lengthViolations fields value
          ++ optionViolations (validatorsAt "anyOf" fields) value path
          ++ itemCountViolations fields value).map here
        ++ itemViolations (validatorAt "items" fields) value path
        ++ (requiredViolations fields value).map here
        ++ propertyViolations (namedValidators fields) (fields.lookup "additionalProperties")
          (validatorAt "additionalProperties" fields) value path
  | _ => fun _ _ => []

/-- The schema under a keyword. -/
def validatorAt (key : String) : List (String × Json) → Option Validator
  | [] => none
  | (name, value) :: rest =>
    if name = key then some (violations value) else validatorAt key rest

/-- The schemas that a keyword lists. -/
def validatorsAt (key : String) : List (String × Json) → Option (List Validator)
  | [] => none
  | (name, .array options) :: rest =>
    if name = key then some (validators options) else validatorsAt key rest
  | (name, _) :: rest => if name = key then none else validatorsAt key rest

/-- The schemas of a list. -/
def validators : List Json → List Validator
  | [] => []
  | option :: rest => violations option :: validators rest

/-- The schemas of the properties under their names. -/
def namedValidators : List (String × Json) → List (String × Validator)
  | [] => []
  | (name, .object properties) :: rest =>
    if name = "properties" then validatorsOf properties else namedValidators rest
  | (name, _) :: rest => if name = "properties" then [] else namedValidators rest

/-- The schemas of some fields. -/
def validatorsOf : List (String × Json) → List (String × Validator)
  | [] => []
  | (name, value) :: rest => (name, violations value) :: validatorsOf rest

end

/-! ## Documents -/

/-- A schema document that has been checked. -/
structure SchemaDocument where
  json : Json

/-- Why something does not give a schema. -/
inductive SchemaError where
  | malformed (problem : StructureError)
  | notSchema (typeName : String)
  deriving DecidableEq, Repr

/-- The words for something that does not give a schema. -/
def SchemaError.message : SchemaError → String
  | malformed problem => problem.message
  | notSchema typeName => "schema expression must produce a schema, found " ++ typeName

namespace SchemaDocument

/-- The schema that a JSON document is. -/
def ofJson (json : Json) : Except SchemaError SchemaDocument :=
  match checkStructure "" json with
  | .ok _ => .ok ⟨json⟩
  | .error problem => .error (.malformed problem)

/-- The schema that a value is: a builder, or an object that is a schema document. -/
def ofValue (value : Value) : Except SchemaError SchemaDocument :=
  match value with
  | .builder builder => ofJson builder.schema
  | .object _ => ofJson value.toJson
  | other => .error (.notSchema other.typeName)

/-- What a value violates. -/
def validate (document : SchemaDocument) (value : Json) : List Violation :=
  violations document.json value ""

end SchemaDocument

end PromptMarkup.Schema
