/-
**Terms that build schemas, and what they mean.**

A term is what an expression calls on the namespace `z` and on what that gives. It says which values
it is about without a look at any keyword: values of a kind, values on a list, arrays and objects of
such, within bounds on the number, on the length or on the number of items.

* `Bound`, `Term`: whole bounds, and terms;
* `Term.measure?`, `Term.IsProper`: what the bounds of a term are about, and terms whose modifiers
  fit;
* `Term.build`: the value that the calls of a term give, which is `Term.builder` (`build_eq_ok`);
* `Term.bound?`: the bound of a term on one side, the one that is set last;
* `Term.Allows`, `Term.Means`: the values that a term is about, with the bounds that are heeded, and
  with all of its bounds.
-/

import PromptMarkup.Proofs.Schema.Modifiers

namespace PromptMarkup.Schema

/-! ### Terms -/

/-- A whole number that is not negative. -/
structure Bound where
  value : Float
  whole : Number.isWhole value = true
  nonneg : 0 ≤ value

/-- What is called on the namespace and on the builders that it gives. -/
inductive Term where
  | string
  | number
  | integer
  | boolean
  | null
  | any
  | array (item : Term)
  | object (fields : List (String × Term))
  | enum (values : List Value)
  | literal (value : Value)
  | union (options : List Term)
  | describe (text : Value) (term : Term)
  | optional (term : Term)
  | int (term : Term)
  | bound (lower : Bool) (limit : Bound) (term : Term)

namespace Term

/-- What the bounds of a term are about, for strings, arrays and numbers. A list of strings is about
strings. -/
def measure? : Term → Option Measure
  | string => some .length
  | number => some .value
  | integer => some .value
  | array _ => some .items
  | enum values =>
    if (Value.itemsToJson values).all fun value => value.string?.isSome then some .length else none
  | describe _ term => term.measure?
  | optional term => term.measure?
  | int term => term.measure?
  | bound _ _ term => term.measure?
  | _ => none

/-- A field of an object that may be left out. -/
def isOptional : Term → Bool
  | optional _ => true
  | describe _ term => term.isOptional
  | int term => term.isOptional
  | bound _ _ term => term.isOptional
  | _ => false

mutual

/-- Whole numbers are asked for of numbers only, and bounds are set where they are about something.
-/
def IsProper : Term → Prop
  | array item => item.IsProper
  | object fields => FieldsAreProper fields
  | union options => OptionsAreProper options
  | describe _ term => term.IsProper
  | optional term => term.IsProper
  | int term => term.measure? = some .value ∧ term.IsProper
  | bound _ _ term => term.measure?.isSome ∧ term.IsProper
  | _ => True

/-- The terms of all fields are proper. -/
def FieldsAreProper : List (String × Term) → Prop
  | [] => True
  | (_, term) :: rest => term.IsProper ∧ FieldsAreProper rest

/-- All options are proper. -/
def OptionsAreProper : List Term → Prop
  | [] => True
  | term :: rest => term.IsProper ∧ OptionsAreProper rest

end

/-! ### Calls -/

/-- A method of what a term gives. -/
def call (method : String) (args : List Value) (receiver : Value) : Except ExprError Value :=
  match receiver with
  | .builder builder => builderMethod builder method args
  | other => Value.callMethod other method args

mutual

/-- What the calls of a term give. -/
def build : Term → Except ExprError Value
  | string => namespaceMethod "string" []
  | number => namespaceMethod "number" []
  | integer => namespaceMethod "integer" []
  | boolean => namespaceMethod "boolean" []
  | null => namespaceMethod "null" []
  | any => namespaceMethod "any" []
  | array item => do namespaceMethod "array" [← item.build]
  | object fields => do namespaceMethod "object" [.object (← buildFields fields)]
  | enum values => namespaceMethod "enum" [.array values]
  | literal value => namespaceMethod "literal" [value]
  | union options => do namespaceMethod "union" [.array (← buildAll options)]
  | describe text term => do call "describe" [text] (← term.build)
  | optional term => do call "optional" [] (← term.build)
  | int term => do call "int" [] (← term.build)
  | bound lower limit term => do call (boundMethod lower) [.number limit.value] (← term.build)

/-- What the terms of some fields give, under the names of the fields. -/
def buildFields : List (String × Term) → Except ExprError (List (String × Value))
  | [] => .ok []
  | (name, term) :: rest => do return (name, ← term.build) :: (← buildFields rest)

/-- What some terms give. -/
def buildAll : List Term → Except ExprError (List Value)
  | [] => .ok []
  | term :: rest => do return (← term.build) :: (← buildAll rest)

end

mutual

/-- The builder that a term gives. -/
def builder : Term → Builder
  | string => .typed "string"
  | number => .typed "number"
  | integer => .typed "integer"
  | boolean => .typed "boolean"
  | null => .typed "null"
  | any => .ofFields []
  | array item => .arrayOf item.builder
  | object fields => objectOf (fieldBuilders fields)
  | enum values => enumOf (Value.itemsToJson values)
  | literal value => .ofFields [("const", value.toJson)]
  | union options => .ofFields [("anyOf", .array ((builders options).map Builder.schema))]
  | describe text term => term.builder.set "description" (.string text.display)
  | optional term => { term.builder with optional := true, identity := none }
  | int term => term.builder.set "type" (.string "integer")
  | bound lower limit term => term.builder.withBound lower limit.value

/-- The builders of some fields. -/
def fieldBuilders : List (String × Term) → List (String × Builder)
  | [] => []
  | (name, term) :: rest => (name, term.builder) :: fieldBuilders rest

/-- The builders of some terms. -/
def builders : List Term → List Builder
  | [] => []
  | term :: rest => term.builder :: builders rest

end

theorem expectBuilders_fieldBuilders (method : String) (fields : List (String × Term)) :
    expectBuilders method ((fieldBuilders fields).map fun field => (field.1, .builder field.2)) =
      .ok (fieldBuilders fields) := by
  induction fields with
  | nil => rfl
  | cons field rest ih =>
    rw [fieldBuilders, List.map_cons, expectBuilders, ih]
    rfl

theorem mapM_expectBuilder_builders (method : String) (options : List Term) :
    ((builders options).map Value.builder).mapM (expectBuilder method) = .ok (builders options) := by
  induction options with
  | nil => rfl
  | cons option rest ih =>
    rw [builders, List.map_cons, List.mapM_cons, ih]
    rfl

mutual

/-- **The calls of a term give a builder.** -/
theorem build_eq_ok : ∀ term : Term, term.build = .ok (.builder term.builder)
  | string => rfl
  | number => rfl
  | integer => rfl
  | boolean => rfl
  | null => rfl
  | any => rfl
  | array item => by
    rw [build, build_eq_ok item]
    rfl
  | object fields => by
    rw [build, buildFields_eq_ok fields]
    show (do return Value.builder (objectOf (← expectBuilders "object" _))) = _
    rw [expectBuilders_fieldBuilders]
    rfl
  | enum values => rfl
  | literal value => rfl
  | union options => by
    rw [build, buildAll_eq_ok options]
    show (do
      let builders ← List.mapM (expectBuilder "union") _
      return Value.builder (.ofFields [("anyOf", .array (builders.map Builder.schema))])) = _
    rw [mapM_expectBuilder_builders]
    rfl
  | describe text term => by
    rw [build, build_eq_ok term]
    rfl
  | optional term => by
    rw [build, build_eq_ok term]
    rfl
  | int term => by
    rw [build, build_eq_ok term]
    rfl
  | bound lower limit term => by
    rw [build, build_eq_ok term]
    cases lower <;> rfl

theorem buildFields_eq_ok : ∀ fields : List (String × Term),
    buildFields fields = .ok ((fieldBuilders fields).map fun field => (field.1, .builder field.2))
  | [] => rfl
  | (name, term) :: rest => by
    rw [buildFields, build_eq_ok term, buildFields_eq_ok rest]
    rfl

theorem buildAll_eq_ok : ∀ options : List Term,
    buildAll options = .ok ((builders options).map Value.builder)
  | [] => rfl
  | term :: rest => by
    rw [buildAll, build_eq_ok term, buildAll_eq_ok rest]
    rfl

end

theorem optional_builder : ∀ term : Term, term.builder.optional = term.isOptional
  | string => rfl
  | number => rfl
  | integer => rfl
  | boolean => rfl
  | null => rfl
  | any => rfl
  | array _ => rfl
  | object _ => rfl
  | enum values => by
    rw [builder, enumOf]
    split <;> rfl
  | literal _ => rfl
  | union _ => rfl
  | describe _ term => optional_builder term
  | optional _ => rfl
  | int term => optional_builder term
  | bound _ _ term => optional_builder term

/-! ### Meaning -/

/-- The bound of a term on one side. One that is set later takes the place of one set before. -/
def bound? (lower : Bool) : Term → Option Bound
  | describe _ term => term.bound? lower
  | optional term => term.bound? lower
  | int term => term.bound? lower
  | bound side limit term => if side = lower then some limit else term.bound? lower
  | _ => none

end Term

/-- A whole number, written with or without a fraction. -/
def IsWholeNumber (value : Json) : Prop :=
  (∃ number, value = .integer number) ∨
    ∃ number, value = .float number ∧ Number.isWhole number = true

/-- What is counted in a value is within a bound. Numbers are compared as floats. -/
def Measure.Within (measure : Measure) (lower : Bool) (limit : Bound) (value : Json) : Prop :=
  match measure with
  | .value => ∀ number ∈ value.number?,
      ¬ (if lower then number < limit.value else limit.value < number)
  | counted => ∀ count ∈ counted.count? value,
      if lower then Number.toInt limit.value ≤ count else count ≤ Number.toInt limit.value

namespace Term

variable (heeds : Measure → Bound → Prop)

/-- A value is within the bounds of a term that are heeded. -/
def KeepsBounds (term : Term) (value : Json) : Prop :=
  ∀ measure ∈ term.measure?, ∀ lower, ∀ limit ∈ term.bound? lower,
    heeds measure limit → measure.Within lower limit value

mutual

/-- A value is of the kind that a term is about, whatever the bounds of the term itself. -/
def IsOfKind : Term → Json → Prop
  | string, value => ∃ text, value = .string text
  | number, value => ∃ number, value.number? = some number
  | integer, value => IsWholeNumber value
  | boolean, value => ∃ flag, value = .bool flag
  | null, value => value = .null
  | any, _ => True
  | array item, value => ∃ parts, value = .array parts ∧
      ∀ part ∈ parts, item.IsOfKind part ∧ item.KeepsBounds heeds part
  | object fields, value => ∃ members, value = .object members ∧
      (∀ field ∈ fields, field.2.isOptional = false → (members.lookup field.1).isSome = true) ∧
      ∀ member ∈ members, FieldAllows fields member.1 member.2
  | enum allowed, value => ∃ one ∈ allowed, one.toJson.same value = true
  | literal allowed, value => allowed.toJson.same value = true
  | union options, value => SomeAllows options value
  | describe _ term, value => term.IsOfKind value
  | optional term, value => term.IsOfKind value
  | int term, value => IsWholeNumber value ∧ term.IsOfKind value
  | bound _ _ term, value => term.IsOfKind value

/-- A field of that name is declared, and its term allows the value. -/
def FieldAllows : List (String × Term) → String → Json → Prop
  | [], _, _ => False
  | (key, term) :: rest, name, value =>
    if name = key then term.IsOfKind value ∧ term.KeepsBounds heeds value
    else FieldAllows rest name value

/-- One of some terms allows a value. -/
def SomeAllows : List Term → Json → Prop
  | [], _ => False
  | term :: rest, value =>
    (term.IsOfKind value ∧ term.KeepsBounds heeds value) ∨ SomeAllows rest value

end

/-- A term allows a value when the bounds that are heeded count and no others. -/
def Allows (term : Term) (value : Json) : Prop :=
  term.IsOfKind heeds value ∧ term.KeepsBounds heeds value

/-- A value is what a term is about. -/
def Means (term : Term) (value : Json) : Prop := term.Allows (fun _ _ => True) value

mutual

/-- All bounds in a term, each with what it is about, have a property. -/
def EveryBound (holds : Measure → Bound → Prop) : Term → Prop
  | array item => item.EveryBound holds
  | object fields => EveryBoundOfFields holds fields
  | union options => EveryBoundOfAll holds options
  | describe _ term => term.EveryBound holds
  | optional term => term.EveryBound holds
  | int term => term.EveryBound holds
  | bound _ limit term => (∀ measure ∈ term.measure?, holds measure limit) ∧ term.EveryBound holds
  | _ => True

/-- All bounds in some fields have a property. -/
def EveryBoundOfFields (holds : Measure → Bound → Prop) : List (String × Term) → Prop
  | [] => True
  | (_, term) :: rest => term.EveryBound holds ∧ EveryBoundOfFields holds rest

/-- All bounds in some terms have a property. -/
def EveryBoundOfAll (holds : Measure → Bound → Prop) : List Term → Prop
  | [] => True
  | term :: rest => term.EveryBound holds ∧ EveryBoundOfAll holds rest

end

variable {heeds} {holds : Measure → Bound → Prop}

theorem EveryBound.bound? {lower : Bool} {limit : Bound} {measure : Measure} : ∀ term : Term,
    term.EveryBound holds → term.measure? = some measure → term.bound? lower = some limit →
      holds measure limit
  | describe _ term, every, about, set => EveryBound.bound? term every about set
  | optional term, every, about, set => EveryBound.bound? term every about set
  | int term, every, about, set => EveryBound.bound? term every about set
  | bound side other term, every, about, set => by
    rw [Term.bound?] at set
    split at set
    · cases set
      exact every.1 measure about
    · exact EveryBound.bound? term every.2 about set

end Term

end PromptMarkup.Schema
