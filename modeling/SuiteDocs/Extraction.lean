import SuiteDocs.Constant
import SuiteDocs.Log
import SuiteDocs.Model
import SuiteDocs.Source.Match

/-!
Annotations that the body of a test registers.
-/

set_option autoImplicit false

namespace SuiteDocs.Extraction

open SuiteDocs.Text SuiteDocs.Source

def component : Text := "extract.annotations"

/-- The length of a dot and a name, with white space before each of them. -/
def memberLength? (name : Text) (text : Text) : Option Nat :=
  match text.dropWhile isBlank with
  | .char '.' :: rest =>
    let rest := rest.dropWhile isBlank
    if name.isPrefixOf rest then some (text.length - rest.length + name.length) else none
  | _ => none

/-- Recognises `.annotations.push(`, where white space may stand between any two parts. -/
def recogniseCall : Recogniser Unit := fun _ first rest =>
  if first == '.' then do
    let text := first :: rest
    let annotations ← memberLength? ("annotations" : Text) text
    let push ← memberLength? ("push" : Text) (text.drop annotations)
    let after := text.drop (annotations + push)
    match after.dropWhile isBlank with
    | .char '(' :: inner => some ((), rest.length - inner.length)
    | _ => none
  else none

/-- Where a message comes from, if that is known. -/
def origin (source : Option Text) : Text :=
  match source with
  | none => ""
  | some path => if path.isEmpty then "" else " in " ++ path

/-- Whether a text is an identifier or a chain of members. White space may stand around the dots of
a chain. -/
def isReference (text : Text) : Bool :=
  strip text == text && (splitOn '.' text).all fun part => isIdentifier (strip part)

/-- The kind of an annotation: the contents of a string or the last name of a reference. -/
def resolveKind? (raw : Text) : Option Text :=
  match literalValue? raw with
  | some value => some value
  | none => if isReference raw then some (strip (afterLast '.' raw)) else none

/-- The description of an annotation: the contents of a string, the value of a constant, or the
expression itself. -/
def resolveDescription (raw : Text) (constants : Constants) (source : Option Text) :
    Logged Text :=
  match literalValue? raw with
  | some value => pure value
  | none =>
    match if isIdentifier raw then constants.get? raw else none with
    | some value => pure value
    | none => do
      Logged.warning component
        ("Could not resolve description " ++ quoted raw ++ origin source ++
          "; using the expression text")
      return raw

/-- The annotation that an object describes, if it has a kind and a description. -/
def ofFields (fields : Fields) (constants : Constants) (source : Option Text) :
    Logged (Option Annotation) :=
  match fields.get? ("type" : Text), fields.get? ("description" : Text) with
  | some rawKind, some rawDescription =>
    match resolveKind? rawKind with
    | none => pure none
    | some kind =>
      if kind.isEmpty then pure none
      else do
        let description ← resolveDescription rawDescription constants source
        return some ⟨kind, description⟩
  | _, _ => pure none

/-- The annotation of one argument of a call, if it is an object. An object that is not closed
describes none. -/
def ofArgument (body : Text) (constants : Constants) (source : Option Text) (span : Span) :
    LoggedExcept Fault (Option Annotation) :=
  if body[span.start]? == some (.char '\x7b') then
    match objectFields body span.start with
    | .ok fields => ofFields fields constants source
    | .error fault => if fault.isUnbalanced then pure none else throw fault
  else pure none

/-- The annotations of one call, given the offset of its parenthesis. -/
def ofCall (body : Text) (constants : Constants) (source : Option Text) (paren : Nat) :
    LoggedExcept Fault (List Annotation) :=
  match matchingClose body paren with
  | .error fault =>
    if fault.isUnbalanced then do
      Logged.info component ("Unbalanced annotation call" ++ origin source ++ "; ignoring it")
      return []
    else throw fault
  | .ok close => do
    let arguments ← MonadExcept.ofExcept (splitTopLevel body (paren + 1) close (· == ','))
    let found ← arguments.mapM (ofArgument body constants source)
    let annotations := found.filterMap id
    if annotations.isEmpty then
      Logged.info component
        ("Annotation call" ++ origin source ++ " has no parsable annotation objects")
    return annotations

/-- The annotations that a body registers, in order. -/
def annotations (body : Text) (constants : Constants) (source : Option Text) :
    LoggedExcept Fault (List Annotation) := do
  let calls := codeMatches recogniseCall body 0 none
  let found ← calls.mapM fun place => ofCall body constants source (place.offset + place.tail)
  if calls.isEmpty then
    Logged.info component ("No annotation calls found" ++ origin source)
  return found.flatten

end SuiteDocs.Extraction
