/-
**Schemas under construction.**

Expressions build schemas step by step: a builder holds the fields of a JSON Schema and whether a
property of that schema may be left out.

* `Builder`: a schema under construction;
* `Builder.same`: a builder is equal to itself alone.
-/

import PromptMarkup.Json.Basic

namespace PromptMarkup.Schema

/-- A schema under construction. A builder that is bound to a name gets an identity. -/
structure Builder where
  fields : List (String × Json)
  optional : Bool
  identity : Option Nat

namespace Builder

/-- A builder of the given fields, which has no name yet. -/
def ofFields (fields : List (String × Json)) : Builder := ⟨fields, false, none⟩

/-- The schema built so far. -/
def schema (builder : Builder) : Json := .object builder.fields

/-- Two values are the same builder. Builders that no name is bound to are never met twice, so
they differ from all others. -/
def same (first second : Builder) : Bool :=
  match first.identity, second.identity with
  | some one, some other => one = other
  | _, _ => false

end Builder

end PromptMarkup.Schema
