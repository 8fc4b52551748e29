/-
**Building schemas in expressions.**

The namespace `z` makes builders, and the methods of a builder make further ones.

* `namespaceMethod`: a method of `z`;
* `builderMethod`: a method of a builder.
-/

import PromptMarkup.Value.Methods

namespace PromptMarkup.Schema

open Value

/-! ## Builders -/

namespace Builder

/-- A builder with one field set; it has no name yet. -/
def set (builder : Builder) (key : String) (value : Json) : Builder :=
  { builder with fields := Fields.insert key value builder.fields, identity := none }

/-- The type that a builder declares, if it is a single one. -/
def declaredType (builder : Builder) : Option String :=
  (builder.fields.lookup "type").bind Json.string?

/-- The schema of one of the named types. -/
def typed (name : String) : Builder := .ofFields [("type", .string name)]

/-- The schema of arrays of some items. -/
def arrayOf (item : Builder) : Builder :=
  .ofFields [("type", .string "array"), ("items", item.schema)]

/-- A builder that accepts null besides. -/
def nullable (builder : Builder) : Builder :=
  match builder.fields.lookup "type" with
  | some (.string name) => builder.set "type" (.array [.string name, .string "null"])
  | _ =>
    { builder with
      fields := [("anyOf", .array [builder.schema, .object [("type", .string "null")]])]
      identity := none }

/-- The field that a lower or upper bound of a type is kept in. -/
def boundKey (declared : Option String) (lower : Bool) : String :=
  match declared, lower with
  | some "string", true => "minLength"
  | some "string", false => "maxLength"
  | some "array", true => "minItems"
  | some "array", false => "maxItems"
  | _, true => "minimum"
  | _, false => "maximum"

/-- A bound as JSON: whole ones stay whole. -/
def boundJson (bound : Float) : Json :=
  if Number.isWhole bound && bound.abs < 9223372036854775808.0 then
    .integer (Number.toInt bound)
  else if bound.isFinite then .float bound
  else .null

/-- A builder with a lower or upper bound. -/
def withBound (builder : Builder) (lower : Bool) (bound : Float) : Builder :=
  builder.set (boundKey builder.declaredType lower) (boundJson bound)

end Builder

/-- The bound that the first argument gives. -/
def boundArgument (method : String) (args : List Value) : Except ExprError Float :=
  match argument args 0 with
  | .number bound => .ok bound
  | _ => .error (.type (.numberExpected method))

/-- A method of a builder. -/
def builderMethod (builder : Builder) (method : String) (args : List Value) :
    Except ExprError Value :=
  match method with
  | "describe" =>
    let text := (args[0]?).elim "" Value.display
    .ok (.builder (builder.set "description" (.string text)))
  | "optional" => .ok (.builder { builder with optional := true, identity := none })
  | "nullable" => .ok (.builder builder.nullable)
  | "int" => .ok (.builder (builder.set "type" (.string "integer")))
  | "min" => do return .builder (builder.withBound true (← boundArgument method args))
  | "max" => do return .builder (builder.withBound false (← boundArgument method args))
  | "array" => .ok (.builder (Builder.arrayOf builder))
  | _ => .error (.unknownMethod "schema" method)

/-! ## The namespace -/

/-- A value that has to be a builder. -/
def expectBuilder (method : String) : Value → Except ExprError Builder
  | .builder schema => .ok schema
  | _ => .error (.type (.schemaExpected method))

/-- The builders of the properties of an object. -/
def expectBuilders (method : String) :
    List (String × Value) → Except ExprError (List (String × Builder))
  | [] => .ok []
  | (key, value) :: rest => do
    let builder ← expectBuilder method value
    return (key, builder) :: (← expectBuilders method rest)

/-- The schema of objects with these properties and no others. -/
def objectOf (properties : List (String × Builder)) : Builder :=
  let required := properties.filter fun property => !property.2.optional
  .ofFields [("type", .string "object"),
    ("properties", .object (properties.map fun property => (property.1, property.2.schema))),
    ("required", .array (required.map fun property => .string property.1)),
    ("additionalProperties", .bool false)]

/-- The schema of the listed values. -/
def enumOf (values : List Json) : Builder :=
  if values.all fun value => value.string?.isSome then
    .ofFields [("type", .string "string"), ("enum", .array values)]
  else .ofFields [("enum", .array values)]

/-- A method of the namespace. -/
def namespaceMethod (method : String) (args : List Value) : Except ExprError Value :=
  match method with
  | "string" | "number" | "integer" | "boolean" | "null" => .ok (.builder (.typed method))
  | "any" | "unknown" => .ok (.builder (.ofFields []))
  | "array" => do
    return .builder (Builder.arrayOf (← expectBuilder method (argument args 0)))
  | "object" =>
    match argument args 0 with
    | .object shape => do return .builder (objectOf (← expectBuilders method shape))
    | _ => .error (.type (.objectExpected method))
  | "enum" =>
    match argument args 0 with
    | .array values => .ok (.builder (enumOf (Value.itemsToJson values)))
    | _ => .error (.type (.arrayExpected method))
  | "literal" => .ok (.builder (.ofFields [("const", (argument args 0).toJson)]))
  | "union" =>
    match argument args 0 with
    | .array options => do
      let builders ← options.mapM (expectBuilder method)
      return .builder (.ofFields [("anyOf", .array (builders.map Builder.schema))])
    | _ => .error (.type (.arrayExpected method))
  | _ => .error (.unknownMethod "z" method)

end PromptMarkup.Schema
