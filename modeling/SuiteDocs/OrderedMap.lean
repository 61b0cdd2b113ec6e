/-!
Maps that keep the order in which their keys were first added.
-/

set_option autoImplicit false

namespace SuiteDocs

/-- Pairs of keys and values. Adding a key again exchanges its value and keeps its place. -/
structure OrderedMap (κ : Type) (α : Type) where
  entries : List (κ × α)
  deriving Repr, DecidableEq

namespace OrderedMap

variable {κ α : Type} [DecidableEq κ]

def empty : OrderedMap κ α := ⟨[]⟩

/-- Exchanges the value of a key in a list of pairs, or adds the pair at its end. -/
def insertEntry (key : κ) (value : α) : List (κ × α) → List (κ × α)
  | [] => [(key, value)]
  | (other, old) :: rest =>
    if other = key then (key, value) :: rest else (other, old) :: insertEntry key value rest

def insert (map : OrderedMap κ α) (key : κ) (value : α) : OrderedMap κ α :=
  ⟨insertEntry key value map.entries⟩

def get? (map : OrderedMap κ α) (key : κ) : Option α :=
  (map.entries.find? (·.1 = key)).map (·.2)

def contains (map : OrderedMap κ α) (key : κ) : Bool :=
  (map.get? key).isSome

def values (map : OrderedMap κ α) : List α :=
  map.entries.map (·.2)

def keys (map : OrderedMap κ α) : List κ :=
  map.entries.map (·.1)

/-- Adds pairs from left to right. -/
def ofList (pairs : List (κ × α)) : OrderedMap κ α :=
  pairs.foldl (fun map pair => map.insert pair.1 pair.2) empty

/-- Changes the value of a key, if it has one. -/
def adjust (map : OrderedMap κ α) (key : κ) (change : α → α) : OrderedMap κ α :=
  ⟨map.entries.map fun entry => if entry.1 = key then (entry.1, change entry.2) else entry⟩

end OrderedMap

end SuiteDocs
