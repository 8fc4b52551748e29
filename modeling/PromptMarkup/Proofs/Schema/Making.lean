/-
**How schemas under construction come about.**

Builders come from the namespace `z` and from the methods of builders. What the methods do is said
once, as the list of the ways in which the fields of a builder come about, so that what holds of all
builders is shown by induction on them.

* `Builder.IsMade`: a builder that methods of the namespace and of builders give;
* `IsBuilt`: the fields that such a builder can have, by the way they come about;
* `namespaceMethod_yields`, `builderMethod_yields`: what one method gives;
* `Builder.IsMade.isBuilt`: what any calls give.
-/

import PromptMarkup.Proofs.Expr.Outcome
import PromptMarkup.Schema.Namespace
import PromptMarkup.Schema.Validation

namespace PromptMarkup.Schema

open PromptMarkup.Expr (Yields)

/-! ### Calls -/

mutual

/-- The builders in a value. -/
def buildersIn : Value → List Builder
  | .array items => buildersOfItems items
  | .object fields => buildersOfFields fields
  | .builder schema => [schema]
  | _ => []

/-- The builders in the items of an array. -/
def buildersOfItems : List Value → List Builder
  | [] => []
  | item :: rest => buildersIn item ++ buildersOfItems rest

/-- The builders in the fields of an object. -/
def buildersOfFields : List (String × Value) → List Builder
  | [] => []
  | (_, value) :: rest => buildersIn value ++ buildersOfFields rest

end

/-- A builder that some calls give: a method of the namespace for arguments in which all builders
are made, or a method of a builder that is made. Being bound to a name makes no other schema of it.
-/
inductive Builder.IsMade : Builder → Prop
  | ofNamespace {method : String} {args : List Value} {builder : Builder}
      (given : ∀ inner ∈ buildersOfItems args, IsMade inner)
      (made : namespaceMethod method args = .ok (.builder builder)) : IsMade builder
  | ofMethod {receiver : Builder} {method : String} {args : List Value} {builder : Builder}
      (given : IsMade receiver)
      (made : builderMethod receiver method args = .ok (.builder builder)) : IsMade builder
  | named {builder : Builder} (identity : Option Nat) (made : IsMade builder) :
      IsMade { builder with identity := identity }

/-- The fields that builders can have, by the way they come about. -/
inductive IsBuilt : List (String × Json) → Prop
  | typed {name : String} (known : name ∈ typeNames) : IsBuilt (Builder.typed name).fields
  | any : IsBuilt []
  | array {item : Builder} (built : IsBuilt item.fields) : IsBuilt (Builder.arrayOf item).fields
  | object {properties : List (String × Builder)}
      (built : ∀ property ∈ properties, IsBuilt property.2.fields) :
      IsBuilt (objectOf properties).fields
  | enum (values : List Json) : IsBuilt (enumOf values).fields
  | literal (value : Json) : IsBuilt [("const", value)]
  | union {options : List Builder} (built : ∀ option ∈ options, IsBuilt option.fields) :
      IsBuilt [("anyOf", .array (options.map Builder.schema))]
  | describe {builder : Builder} (built : IsBuilt builder.fields) (text : String) :
      IsBuilt (builder.set "description" (.string text)).fields
  | nullable {builder : Builder} (built : IsBuilt builder.fields) : IsBuilt builder.nullable.fields
  | int {builder : Builder} (built : IsBuilt builder.fields) :
      IsBuilt (builder.set "type" (.string "integer")).fields
  | bound {builder : Builder} (built : IsBuilt builder.fields) (lower : Bool) (bound : Float) :
      IsBuilt (builder.withBound lower bound).fields

/-! ### Arguments -/

theorem mem_buildersOfItems {args : List Value} {value : Value} (member : value ∈ args)
    {inner : Builder} (inside : inner ∈ buildersIn value) : inner ∈ buildersOfItems args := by
  induction args with
  | nil => cases member
  | cons first rest ih =>
    rw [buildersOfItems, List.mem_append]
    rcases List.mem_cons.mp member with rfl | later
    · exact .inl inside
    · exact .inr (ih later)

/-- The builders in an argument are among those of all arguments. -/
theorem mem_buildersOfItems_of_argument {args : List Value} {index : Nat} {inner : Builder}
    (inside : inner ∈ buildersIn (Value.argument args index)) : inner ∈ buildersOfItems args := by
  unfold Value.argument at inside
  cases found : args[index]? with
  | none =>
    rw [found] at inside
    cases inside
  | some value =>
    rw [found] at inside
    exact mem_buildersOfItems (List.mem_of_getElem? found) inside

theorem expectBuilder_yields (method : String) (value : Value) :
    Yields (fun builder => builder ∈ buildersIn value) (expectBuilder method value) := by
  cases value with
  | builder schema => exact .ok (List.mem_singleton_self schema)
  | _ => exact .error _

theorem expectBuilders_yields (method : String) (shape : List (String × Value)) :
    Yields (fun built => ∀ property ∈ built, property.2 ∈ buildersOfFields shape)
      (expectBuilders method shape) := by
  induction shape with
  | nil => exact .ok fun property member => by cases member
  | cons field rest ih =>
    obtain ⟨key, value⟩ := field
    rw [expectBuilders]
    refine (expectBuilder_yields method value).bind fun builder here => ?_
    refine ih.bind fun others later => .ok ?_
    rw [List.forall_mem_cons, buildersOfFields]
    exact ⟨List.mem_append_left _ here,
      fun property member => List.mem_append_right _ (later property member)⟩

theorem mapM_expectBuilder_yields (method : String) (options : List Value) :
    Yields (fun built => ∀ builder ∈ built, builder ∈ buildersOfItems options)
      (options.mapM (expectBuilder method)) := by
  induction options with
  | nil => exact .ok fun builder member => by cases member
  | cons option rest ih =>
    rw [List.mapM_cons]
    refine (expectBuilder_yields method option).bind fun builder here => ?_
    refine ih.bind fun others later => .ok ?_
    rw [List.forall_mem_cons, buildersOfItems]
    exact ⟨List.mem_append_left _ here,
      fun builder member => List.mem_append_right _ (later builder member)⟩

/-! ### Methods -/

/-- A value that is a builder has fields that builders can have. -/
def HoldsBuilt (value : Value) : Prop := ∀ builder, value = .builder builder → IsBuilt builder.fields

theorem HoldsBuilt.builder {builder : Builder} (built : IsBuilt builder.fields) :
    HoldsBuilt (.builder builder) := by
  rintro _ ⟨⟩
  exact built

/-- **What the namespace gives**, if the builders it is given come about so. -/
theorem namespaceMethod_yields {method : String} {args : List Value}
    (given : ∀ inner ∈ buildersOfItems args, IsBuilt inner.fields) :
    Yields HoldsBuilt (namespaceMethod method args) := by
  have first : ∀ inner ∈ buildersIn (Value.argument args 0), IsBuilt inner.fields :=
    fun inner inside => given inner (mem_buildersOfItems_of_argument inside)
  unfold namespaceMethod
  split
  · exact .ok (.builder (.typed (by decide)))
  · exact .ok (.builder (.typed (by decide)))
  · exact .ok (.builder (.typed (by decide)))
  · exact .ok (.builder (.typed (by decide)))
  · exact .ok (.builder (.typed (by decide)))
  · exact .ok (.builder .any)
  · exact .ok (.builder .any)
  · exact (expectBuilder_yields _ _).bind fun item inside =>
      .ok (.builder (.array (first item inside)))
  · split
    next shape same =>
      rw [same] at first
      exact (expectBuilders_yields _ shape).bind fun properties inside =>
        .ok (.builder (.object fun property member => first property.2 (inside property member)))
    next => exact .error _
  · split
    next => exact .ok (.builder (.enum _))
    next => exact .error _
  · exact .ok (.builder (.literal _))
  · split
    next options same =>
      rw [same] at first
      exact (mapM_expectBuilder_yields _ options).bind fun builders inside =>
        .ok (.builder (.union fun option member => first option (inside option member)))
    next => exact .error _
  · exact .error _

/-- **What a method of a builder gives.** -/
theorem builderMethod_yields {builder : Builder} (built : IsBuilt builder.fields) (method : String)
    (args : List Value) : Yields HoldsBuilt (builderMethod builder method args) := by
  unfold builderMethod
  split
  · exact .ok (.builder (.describe built _))
  · exact .ok (.builder built)
  · exact .ok (.builder (.nullable built))
  · exact .ok (.builder (.int built))
  · exact .bind_any fun bound => .ok (.builder (.bound built true bound))
  · exact .bind_any fun bound => .ok (.builder (.bound built false bound))
  · exact .ok (.builder (.array built))
  · exact .error _

/-- A builder that has been made has fields that builders can have. -/
theorem Builder.IsMade.isBuilt {builder : Builder} (made : builder.IsMade) :
    IsBuilt builder.fields := by
  induction made with
  | ofNamespace _ made built => exact namespaceMethod_yields built _ made _ rfl
  | ofMethod _ made built => exact builderMethod_yields built _ _ _ made _ rfl
  | named _ _ built => exact built

end PromptMarkup.Schema
