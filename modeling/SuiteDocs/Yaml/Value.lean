import SuiteDocs.Yaml.Meaning
import SuiteDocs.Yaml.Node

/-!
The values of a configuration text.

Every node has one value. A collection is made empty when it is met and gets its members later, in
the order in which collections were met: what lies deep in one collection is looked at only after
what lies less deep in the next. A repeated key has the value of its last entry. Entries that a
mapping merges in stand before its own, so that its own win.
-/

set_option autoImplicit false

namespace SuiteDocs.Yaml

/-- A value. The members of collections are nodes by number. -/
inductive Value where
  | atom (atom : Atom)
  | sequence (items : List Nat)
  | pairs (items : List (Nat × Nat))
  | set (members : List Nat)
  | mapping (entries : List (Nat × Nat))

/-- Whether a value may be a key: collections may not. -/
def Value.isKey : Value → Bool
  | .atom _ => true
  | _ => false

/-- The nodes of a text, the values that they have so far, and the collections that wait for their
members. -/
structure Construction where
  nodes : Graph
  values : List (Nat × Value)
  waiting : List Nat

/-- An action that makes values. -/
abbrev Construct := StateT Construction (Except Error)

namespace Construct

def node (number : Nat) : Construct Node := do
  match (← get).nodes[number]? with
  | some node => return node
  | none => throw .malformed

def modifyNode (number : Nat) (change : Node → Node) : Construct Unit :=
  modify fun state => { state with nodes := state.nodes.modify number change }

def setValue (number : Nat) (value : Value) : Construct Unit :=
  modify fun state => { state with values := (number, value) :: state.values }

def entriesOf (number : Nat) : Construct (List (Nat × Nat)) := do
  match (← node number).content with
  | .mapping entries => return entries
  | _ => throw .malformed

def itemsOf (number : Nat) : Construct (List Nat) := do
  match (← node number).content with
  | .sequence items => return items
  | _ => throw .malformed

/-! ## Merging -/

/-- Takes the entries that a mapping merges in, from the entry at an index on, `fuel` steps at most.
Those found so far are given; at the end they stand before the other entries. A mapping that is
merged in has its own merged entries first, and of the mappings in a sequence the first wins. -/
def mergeFrom : Nat → Nat → Nat → List (Nat × Nat) → Construct Unit
  | 0, _, _, _ => throw .tooDeep
  | fuel + 1, number, index, merged => do
    let entries ← entriesOf number
    match entries[index]? with
    | none => setEntries number (merged ++ entries)
    | some (key, value) =>
      match Kind.ofTag? (← node key).tag with
      | some .merge =>
        setEntries number (entries.eraseIdx index)
        let found ← match (← node value).content with
          | .mapping _ => do
            mergeFrom fuel value 0 []
            entriesOf value
          | .sequence items => do
            let lists ← items.mapM fun item => do
              let _ ← entriesOf item
              mergeFrom fuel item 0 []
              entriesOf item
            pure lists.reverse.flatten
          | .scalar _ => throw .malformed
        mergeFrom fuel number index (merged ++ found)
      | some .default =>
        modifyNode key fun node => { node with tag := Kind.text.tag }
        mergeFrom fuel number (index + 1) merged
      | _ => mergeFrom fuel number (index + 1) merged
where
  setEntries (number : Nat) (entries : List (Nat × Nat)) : Construct Unit :=
    modifyNode number fun node => { node with content := .mapping entries }

def memberCount : Content → Nat
  | .scalar _ => 0
  | .sequence items => items.length
  | .mapping entries => entries.length

/-- More steps than any merging takes: every member of a node at most doubles the entries of those
that merge it. -/
def mergeBound (nodes : Graph) : Nat :=
  let members := nodes.foldl (fun count node => count + memberCount node.content) 0
  Nat.pow 2 (members + 1) * (members + 2)

/-- Lets a mapping take the entries that it merges in. -/
def merge (number : Nat) : Construct Unit := do
  mergeFrom (mergeBound (← get).nodes) number 0 []

/-! ## Values -/

/-- The text of a node, `fuel` nodes away at most: its own, or that of the default value of a
mapping. -/
def textOf : Nat → Nat → Construct Text
  | 0, _ => throw .tooDeep
  | fuel + 1, number => do
    match (← node number).content with
    | .scalar text => return text
    | .sequence _ => throw .malformed
    | .mapping entries =>
      let nodes := (← get).nodes
      let isDefault (number : Nat) : Bool :=
        (nodes[number]?).any fun node => Kind.ofTag? node.tag == some .default
      match entries.find? fun (key, _) => isDefault key with
      | some (_, value) => textOf fuel value
      | none => throw .malformed

/-- The empty collection of a kind; the other kinds are those of texts. -/
def emptyOf? : Kind → Option Value
  | .sequence => some (.sequence [])
  | .mapping => some (.mapping [])
  | .set => some (.set [])
  | .orderedPairs => some (.pairs [])
  | .pairs => some (.pairs [])
  | _ => none

/-- The value of a node as far as it is made; a collection that is met for the first time waits for
its members. -/
def value (number : Nat) : Construct Value := do
  match (← get).values.lookup number with
  | some value => return value
  | none =>
    let found ← node number
    match Kind.ofTag? found.tag with
    | none => throw .malformed
    | some kind =>
      match emptyOf? kind with
      | some empty =>
        setValue number empty
        modify fun state => { state with waiting := state.waiting ++ [number] }
        return empty
      | none =>
        let text ← textOf ((← get).nodes.size + 1) number
        if kind == .moment && !(isScalar found.content) then throw .dateMapping
        let made := Value.atom (← Atom.ofText kind text)
        setValue number made
        return made
where
  isScalar : Content → Bool
    | .scalar _ => true
    | _ => false

/-- Makes the values of the entries of a mapping, with what it merges in. -/
def entryValues (number : Nat) : Construct (List (Nat × Nat)) := do
  let _ ← entriesOf number
  merge number
  let entries ← entriesOf number
  entries.forM fun (key, member) => do
    if !(← value key).isKey then throw .malformed
    let _ ← value member
  return entries

/-- Makes the values of the pairs of a sequence of mappings with one entry. -/
def pairValues (number : Nat) : Construct (List (Nat × Nat)) := do
  (← itemsOf number).mapM fun item => do
    match ← entriesOf item with
    | [(key, member)] =>
      let _ ← value key
      let _ ← value member
      return (key, member)
    | _ => throw .malformed

def complete (number : Nat) : Construct Unit := do
  match Kind.ofTag? (← node number).tag with
  | some .sequence =>
    let items ← itemsOf number
    items.forM fun item => do let _ ← value item
    setValue number (.sequence items)
  | some .mapping => setValue number (.mapping (← entryValues number))
  | some .set => setValue number (.set ((← entryValues number).map (·.1)))
  | some .orderedPairs | some .pairs => setValue number (.pairs (← pairValues number))
  | _ => return ()

/-- Gives all collections that wait their members, `fuel` of them at most. -/
def completeAll : Nat → Construct Unit
  | 0 => return ()
  | fuel + 1 => do
    match (← get).waiting with
    | [] => return ()
    | number :: waiting =>
      modify fun state => { state with waiting }
      complete number
      completeAll fuel

end Construct

/-- The values of a text: that of the root, and those of all nodes. -/
structure Document where
  root : Value
  values : List (Nat × Value)

namespace Document

/-- The document of a text; without one it is nothing. -/
def ofText (text : Text) : Except Error Document := do
  match ← Graph.ofText text with
  | (_, none) => return ⟨.atom .null, []⟩
  | (nodes, some root) =>
    let build : Construct Value := do
      let _ ← Construct.value root
      Construct.completeAll (nodes.size + 1)
      Construct.value root
    let (value, state) ← build.run { nodes, values := [], waiting := [] }
    return ⟨value, state.values⟩

def value? (document : Document) (number : Nat) : Option Value :=
  document.values.lookup number

def isText (document : Document) (text : Text) (number : Nat) : Bool :=
  match document.value? number with
  | some (.atom (.text found)) => found == text
  | _ => false

/-- The value under a key that is a text. -/
def field? (document : Document) (value : Value) (name : Text) : Option Value :=
  match value with
  | .mapping entries => do
    let (_, member) ← entries.reverse.find? fun (key, _) => document.isText name key
    document.value? member
  | _ => none

end Document

end SuiteDocs.Yaml
