import SuiteDocs.Number.Shortest
import SuiteDocs.OrderedMap
import SuiteDocs.Text.Quoted

/-!
Values of the data format of result files, and their text in documents and messages.
-/

set_option autoImplicit false

namespace SuiteDocs

/-- A value. Whole numbers are exact; the fields of an object keep their order. -/
inductive Json where
  | null
  | bool (value : Bool)
  | int (value : Int)
  | number (value : Binary64)
  | string (value : Text)
  | array (items : List Json)
  | object (fields : List (Text × Json))

namespace Json

/-! ## Comparing values -/

mutual

/-- Whether two values are the same part by part. -/
def same : Json → Json → Bool
  | .null, .null => true
  | .bool first, .bool second => first == second
  | .int first, .int second => first == second
  | .number first, .number second => first == second
  | .string first, .string second => first == second
  | .array first, .array second => sameItems first second
  | .object first, .object second => sameFields first second
  | _, _ => false

def sameItems : List Json → List Json → Bool
  | [], [] => true
  | first :: rest, second :: others => same first second && sameItems rest others
  | _, _ => false

def sameFields : List (Text × Json) → List (Text × Json) → Bool
  | [], [] => true
  | (name, first) :: rest, (other, second) :: others =>
    name == other && same first second && sameFields rest others
  | _, _ => false

end

mutual

theorem same_iff : ∀ first second : Json, same first second = true ↔ first = second
  | .null, second => by cases second <;> simp [same]
  | .bool _, second => by cases second <;> simp [same]
  | .int _, second => by cases second <;> simp [same]
  | .number _, second => by cases second <;> simp [same]
  | .string _, second => by cases second <;> simp [same]
  | .array first, second => by
    cases second with
    | array second => rw [same, sameItems_iff, array.injEq]
    | _ => simp [same]
  | .object first, second => by
    cases second with
    | object second => rw [same, sameFields_iff, object.injEq]
    | _ => simp [same]

theorem sameItems_iff : ∀ first second : List Json, sameItems first second = true ↔ first = second
  | [], second => by cases second <;> simp [sameItems]
  | first :: rest, second => by
    cases second with
    | nil => simp [sameItems]
    | cons other others => rw [sameItems, Bool.and_eq_true, same_iff, sameItems_iff, List.cons.injEq]

theorem sameFields_iff : ∀ first second : List (Text × Json),
    sameFields first second = true ↔ first = second
  | [], second => by cases second <;> simp [sameFields]
  | (name, first) :: rest, second => by
    cases second with
    | nil => simp [sameFields]
    | cons field others =>
      obtain ⟨other, second⟩ := field
      rw [sameFields, Bool.and_eq_true, Bool.and_eq_true, same_iff, sameFields_iff, beq_iff_eq,
        List.cons.injEq, Prod.mk.injEq]

end

instance : DecidableEq Json := fun first second =>
  decidable_of_decidable_of_iff (same_iff first second)

/-! ## Looking into values -/

/-- The value of a field, if this is an object that has it. -/
def field? : Json → Text → Option Json
  | .object fields, name => (fields.find? (·.1 == name)).map (·.2)
  | _, _ => none

/-- The string that this is, if it is one. -/
def string? : Json → Option Text
  | .string value => some value
  | _ => none

/-- The items of an array; any other value has none. -/
def items : Json → List Json
  | .array items => items
  | _ => []

def isArray : Json → Bool
  | .array _ => true
  | _ => false

def isObject : Json → Bool
  | .object _ => true
  | _ => false

/-! ## The text of values -/

def boolText (value : Bool) : Text :=
  if value then "True" else "False"

mutual

/-- The text of a value inside another one: strings stand in quotes. -/
def shown : Json → Text
  | .null => "None"
  | .bool value => boolText value
  | .int value => Text.ofInt value
  | .number value => value.text
  | .string value => Text.quoted value
  | .array items => "[" ++ List.intercalate ", " (shownItems items) ++ "]"
  | .object fields => "\x7b" ++ List.intercalate ", " (shownFields fields) ++ "\x7d"

/-- The texts of the items of an array. -/
def shownItems : List Json → List Text
  | [] => []
  | item :: rest => shown item :: shownItems rest

/-- The texts of the fields of an object. -/
def shownFields : List (Text × Json) → List Text
  | [] => []
  | (name, value) :: rest => (Text.quoted name ++ ": " ++ shown value) :: shownFields rest

end

/-- The text of a value: a string is its own text. -/
def text : Json → Text
  | .string value => value
  | value => shown value

end Json

end SuiteDocs
