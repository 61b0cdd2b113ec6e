import SuiteDocs.Source.Field

/-!
The tag and the description that the options of a suite give.
-/

set_option autoImplicit false

namespace SuiteDocs

open SuiteDocs.Text SuiteDocs.Source

/-- What the options of a suite say. -/
structure SuiteOptions where
  tag : Text
  description : Text
  deriving DecidableEq, Repr

namespace SuiteOptions

/-- The options of a suite that has none. -/
def none : SuiteOptions := ⟨"", ""⟩

/-- The tag: a string, or the strings of an array that are not empty. -/
def tagOf (raw : Option Text) : Except Fault Text :=
  match raw with
  | .none => .ok []
  | some raw =>
    match literalValue? raw with
    | some value => .ok value
    | .none => do
      let items ← arrayItems raw
      let tags := (items.filterMap literalValue?).filter (!·.isEmpty)
      return List.intercalate ", " tags

/-- The first description, other than the empty one, of the objects in a list. -/
def firstDescription : List Text → Except Fault Text
  | [] => .ok []
  | candidate :: rest =>
    if candidate.head? == some '\x7b' then do
      let fields ← objectFields candidate 0
      match (fields.get? ("description" : Text)).bind literalValue? with
      | some value => if value.isEmpty then firstDescription rest else .ok value
      | .none => firstDescription rest
    else firstDescription rest

/-- The description: that of an object, or of the first object of an array that has one. -/
def descriptionOf (raw : Option Text) : Except Fault Text :=
  match raw with
  | .none => .ok []
  | some raw =>
    if raw.head? == some '\x7b' then firstDescription [raw]
    else do firstDescription (← arrayItems raw)

/-- What the fields of an options object say. -/
def ofFields (fields : Fields) : Except Fault SuiteOptions := do
  let tag ← tagOf (fields.get? ("tag" : Text))
  let description ← descriptionOf (fields.get? ("annotation" : Text))
  return ⟨tag, description⟩

/-- What the text of the options says. Only strings count; names are not resolved. A text that is
no object, or not balanced, says nothing. -/
def ofText (text : Text) : Except Fault SuiteOptions :=
  let text := strip text
  if text.head? == some '\x7b' then
    match objectFields text 0 >>= ofFields with
    | .ok options => .ok options
    | .error fault => if fault.isUnbalanced then .ok none else .error fault
  else .ok none

end SuiteOptions

end SuiteDocs
