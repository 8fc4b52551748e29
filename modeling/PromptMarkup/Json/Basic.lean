/-
**JSON values.**

Objects keep their fields in order; whole numbers and floats are different values.

* `Json`: the values;
* `Fields.insert`: a field set in place or added at the end, with `lookup_insert_self` and
  `lookup_insert_of_ne`;
* `Json.get?`, `Json.set`: a field of an object, and the object with a field set;
* `Json.same`: equality, which ignores the order of fields;
* `Json.kind`: the word for the kind of a value.
-/

namespace PromptMarkup

/-! ## Ordered fields -/

namespace Fields

variable {α : Type}

/-- The fields with `key` set: a field that is there keeps its place, a new one comes last. -/
def insert (key : String) (value : α) : List (String × α) → List (String × α)
  | [] => [(key, value)]
  | (other, old) :: rest =>
    if key = other then (other, value) :: rest else (other, old) :: insert key value rest

/-- The fields with all of `more` set one after the other. -/
def insertAll (fields more : List (String × α)) : List (String × α) :=
  more.foldl (fun fields field => insert field.1 field.2 fields) fields

/-- A field of that name is there. -/
def contains (key : String) (fields : List (String × α)) : Bool :=
  fields.any fun field => field.1 = key

/-- The names of the fields in order. -/
def names (fields : List (String × α)) : List String := fields.map Prod.fst

theorem lookup_insert_self (key : String) (value : α) (fields : List (String × α)) :
    (insert key value fields).lookup key = some value := by
  induction fields with
  | nil => simp [insert]
  | cons field rest ih =>
    obtain ⟨other, old⟩ := field
    by_cases same : key = other
    · simp [insert, same]
    · simp [insert, same, List.lookup_cons, beq_false_of_ne same, ih]

theorem lookup_insert_of_ne {key other : String} (different : other ≠ key) (value : α)
    (fields : List (String × α)) :
    (insert key value fields).lookup other = fields.lookup other := by
  induction fields with
  | nil => simp [insert, List.lookup_cons, beq_false_of_ne different]
  | cons field rest ih =>
    obtain ⟨name, old⟩ := field
    by_cases same : key = name
    · subst same
      simp [insert, List.lookup_cons, beq_false_of_ne different]
    · by_cases here : other = name
      · simp [insert, same, here]
      · simp [insert, same, List.lookup_cons, beq_false_of_ne here, ih]

end Fields

/-! ## Values -/

/-- A JSON value. -/
inductive Json where
  | null
  | bool (value : Bool)
  /-- A whole number. -/
  | integer (value : Int)
  /-- A number with a fraction or an exponent. -/
  | float (value : Float)
  | string (value : String)
  | array (items : List Json)
  | object (fields : List (String × Json))
  deriving Inhabited

namespace Json

/-- The word for the kind of a value; all numbers are of one kind. -/
def kind : Json → String
  | null => "null"
  | bool _ => "boolean"
  | integer _ => "number"
  | float _ => "number"
  | string _ => "string"
  | array _ => "array"
  | object _ => "object"

/-- The field of an object. -/
def get? (value : Json) (key : String) : Option Json :=
  match value with
  | object fields => fields.lookup key
  | _ => none

/-- The value with a field set. Nothing becomes an object; what has no fields stays as it is. -/
def set (value : Json) (key : String) (field : Json) : Json :=
  match value with
  | null => object [(key, field)]
  | object fields => object (Fields.insert key field fields)
  | other => other

/-- The text of a string. -/
def string? : Json → Option String
  | string value => some value
  | _ => none

/-- The items of an array. -/
def array? : Json → Option (List Json)
  | array items => some items
  | _ => none

/-- The fields of an object. -/
def object? : Json → Option (List (String × Json))
  | object fields => some fields
  | _ => none

/-- The float nearest to a number. -/
def number? : Json → Option Float
  | integer value => some (Float.ofInt value)
  | float value => some value
  | _ => none

/-- A whole number that is not negative. -/
def natural? : Json → Option Nat
  | integer value => if 0 ≤ value then some value.toNat else none
  | _ => none

mutual

/-- Two values are equal; the order of fields does not count, a whole number differs from a float,
and a float is compared by value. -/
def same : Json → Json → Bool
  | null, null => true
  | bool first, bool second => first = second
  | integer first, integer second => first = second
  | float first, float second => first == second
  | string first, string second => first = second
  | array first, array second => sameItems first second
  | object first, object second => first.length = second.length && sameFields first second
  | _, _ => false

/-- Two lists are equal item by item. -/
def sameItems : List Json → List Json → Bool
  | [], [] => true
  | first :: rest, second :: others => same first second && sameItems rest others
  | _, _ => false

/-- Every field of the first list has an equal one of its name in the second. -/
def sameFields : List (String × Json) → List (String × Json) → Bool
  | [], _ => true
  | (key, value) :: rest, others =>
    (match others.lookup key with
    | some other => same value other
    | none => false) && sameFields rest others

end

end Json

end PromptMarkup
