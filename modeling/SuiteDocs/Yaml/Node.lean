import SuiteDocs.Yaml.Resolution
import SuiteDocs.Yaml.Token

/-!
The nodes of a configuration text.

A text holds one document at most. Its nodes are numbered in the order in which they begin, and
refer to each other by number: an alias stands for a node that is there already, which may be a
collection that is still open. The tokens are read by recursive descent: every collection takes at
least one token, so a bound of three times the number of tokens is never met. Collections may be
nested to a limit only.
-/

set_option autoImplicit false

namespace SuiteDocs.Yaml

/-- What a node holds: a text, or other nodes by number. -/
inductive Content where
  | scalar (text : Text)
  | sequence (items : List Nat)
  | mapping (entries : List (Nat × Nat))
  deriving DecidableEq, Repr

structure Node where
  tag : Text
  content : Content
  deriving DecidableEq, Repr

/-- The nodes of a document by number. -/
abbrev Graph := Array Node

/-- How far a document is read. -/
structure Reading where
  tokens : List Token
  /-- What goes wrong behind the last token. -/
  failure : Option Error
  /-- The nodes that may be referred to. -/
  anchors : List (Text × Nat)
  /-- What the handles of tags stand for. -/
  handles : List (Text × Text)
  /-- The number of collections that are open. -/
  depth : Nat
  nodes : Graph

/-- An action that reads tokens. -/
abbrev Read := StateT Reading (Except Error)

namespace Read

/-- The next token; there is none at the end of the text. -/
def next? : Read (Option Token) := do
  let reading ← get
  match reading.tokens, reading.failure with
  | token :: _, _ => return some token
  | [], none => return none
  | [], some error => throw error

def skip : Read Unit := modify fun reading => { reading with tokens := reading.tokens.tail }

/-- Whether the next token is one of a list. -/
def nextAmong (list : List Token) : Read Bool := return (← next?).any list.contains

/-- Goes past a token that has to come next. -/
def expect (token : Token) : Read Unit := do
  if (← next?) == some token then skip else throw .malformed

/-- Goes past a token if it comes next, and says whether it did. -/
def accept (token : Token) : Read Bool := do
  if (← next?) == some token then skip; return true
  else return false

/-! ## Nodes -/

/-- Adds a node and gives its number. -/
def add (tag : Text) (content : Content) : Read Nat := do
  let number := (← get).nodes.size
  modify fun reading => { reading with nodes := reading.nodes.push ⟨tag, content⟩ }
  return number

/-- Adds a node that the text leaves out. -/
def addMissing : Read Nat := add Kind.null.tag (.scalar "")

def fill (number : Nat) (content : Content) : Read Nat := do
  modify fun reading =>
    { reading with nodes := reading.nodes.modify number fun node => { node with content } }
  return number

/-- How deeply collections may be nested. The reader opens two calls for each collection that it is
inside of, and of a thousand calls about twenty-four are open when a text is read; the exact number
depends on the caller. -/
def maxDepth : Nat := 488

def inside {α : Type} (members : Read α) : Read α := do
  let depth := (← get).depth
  if depth == maxDepth then throw .tooDeep
  modify fun reading => { reading with depth := depth + 1 }
  let found ← members
  modify fun reading => { reading with depth }
  return found

def anchor? : Read (Option Text) := do
  match ← next? with
  | some (.anchor name) => skip; return some name
  | _ => return none

/-- The tag of the next node, with its handle resolved. -/
def tag? : Read (Option Text) := do
  match ← next? with
  | some (.tag none suffix) => skip; return some suffix
  | some (.tag (some handle) suffix) =>
    match (← get).handles.lookup handle with
    | none => throw .malformed
    | some start => skip; return some (start ++ suffix)
  | _ => return none

/-- The anchor and the tag of the next node, in any order. -/
def properties : Read (Option Text × Option Text) := do
  match ← anchor? with
  | some name => return (some name, ← tag?)
  | none => do
    let tag ← tag?
    if tag.isSome then return (← anchor?, tag) else return (none, none)

/-- Adds a node to which an anchor may refer. An anchor that is taken is refused. -/
def addAnchored (anchor : Option Text) (tag : Text) (content : Content) : Read Nat := do
  if let some name := anchor then
    if ((← get).anchors.lookup name).isSome then throw .malformed
  let number ← add tag content
  if let some name := anchor then
    modify fun reading => { reading with anchors := (name, number) :: reading.anchors }
  return number

/-- The tag of a text. The tag `!` asks for a look at the text even if it is quoted. -/
def scalarTag (given : Option Text) (plain : Bool) (text : Text) : Text :=
  match given with
  | some tag => if tag == "!" then (Kind.ofPlain text).tag else tag
  | none => (if plain then Kind.ofPlain text else .text).tag

def collectionTag (given : Option Text) (kind : Kind) : Text :=
  (given.filter (· != ("!" : Text))).getD kind.tag

mutual

/-- A node. Block collections are allowed in blocks only, and a sequence that is not indented only
in a mapping. -/
def node : Nat → Bool → Bool → Read Nat
  | 0, _, _ => throw .malformed
  | fuel + 1, inBlock, indentless => do
    match ← next? with
    | some (.alias name) =>
      skip
      match (← get).anchors.lookup name with
      | none => throw .malformed
      | some number => return number
    | _ => do
      let (anchor, given) ← properties
      match ← next? with
      | some (.scalar text plain) =>
        skip
        addAnchored anchor (scalarTag given plain text) (.scalar text)
      | some .blockEntry =>
        if indentless then
          let number ← addAnchored anchor (collectionTag given .sequence) (.sequence [])
          fill number (.sequence (← inside (indentlessItems fuel)))
        else empty anchor given
      | some .flowSequenceStart =>
        let number ← addAnchored anchor (collectionTag given .sequence) (.sequence [])
        skip
        fill number (.sequence (← inside (flowItems fuel true)))
      | some .flowMappingStart =>
        let number ← addAnchored anchor (collectionTag given .mapping) (.mapping [])
        skip
        fill number (.mapping (← inside (flowEntries fuel true)))
      | some .blockSequenceStart =>
        if !inBlock then empty anchor given
        else
          let number ← addAnchored anchor (collectionTag given .sequence) (.sequence [])
          skip
          fill number (.sequence (← inside (blockItems fuel)))
      | some .blockMappingStart =>
        if !inBlock then empty anchor given
        else
          let number ← addAnchored anchor (collectionTag given .mapping) (.mapping [])
          skip
          fill number (.mapping (← inside (blockEntries fuel)))
      | _ => empty anchor given
where
  /-- A node that has nothing but an anchor or a tag. -/
  empty (anchor given : Option Text) : Read Nat :=
    if anchor.isSome || given.isSome then addAnchored anchor (scalarTag given true "") (.scalar "")
    else throw .malformed

/-- A node, unless one of the tokens that may follow a missing node comes next. -/
def nodeUnless : Nat → List Token → Bool → Bool → Read Nat
  | 0, _, _, _ => throw .malformed
  | fuel + 1, followers, inBlock, indentless => do
    if ← nextAmong followers then addMissing else node fuel inBlock indentless

def blockItems : Nat → Read (List Nat)
  | 0 => throw .malformed
  | fuel + 1 => do
    if ← accept .blockEntry then
      let item ← nodeUnless fuel [.blockEntry, .blockEnd] true false
      return item :: (← blockItems fuel)
    else
      expect .blockEnd
      return []

/-- The items of a sequence that is not indented. -/
def indentlessItems : Nat → Read (List Nat)
  | 0 => throw .malformed
  | fuel + 1 => do
    if ← accept .blockEntry then
      let item ← nodeUnless fuel [.blockEntry, .key, .value, .blockEnd] true false
      return item :: (← indentlessItems fuel)
    else return []

def blockEntries : Nat → Read (List (Nat × Nat))
  | 0 => throw .malformed
  | fuel + 1 => do
    if ← accept .key then
      let key ← nodeUnless fuel [.key, .value, .blockEnd] true true
      let value ←
        if ← accept .value then nodeUnless fuel [.key, .value, .blockEnd] true true
        else addMissing
      return (key, value) :: (← blockEntries fuel)
    else
      expect .blockEnd
      return []

/-- The items of a flow sequence. An entry with a key stands for a mapping of its own. -/
def flowItems : Nat → Bool → Read (List Nat)
  | 0, _ => throw .malformed
  | fuel + 1, first => do
    if ← accept .flowSequenceEnd then return []
    else
      if !first then expect .flowEntry
      if ← accept .key then
        let number ← add Kind.mapping.tag (.mapping [])
        let entry ← inside do
          let key ← nodeUnless fuel [.value, .flowEntry, .flowSequenceEnd] false false
          let value ←
            if ← accept .value then nodeUnless fuel [.flowEntry, .flowSequenceEnd] false false
            else addMissing
          return (key, value)
        let item ← fill number (.mapping [entry])
        return item :: (← flowItems fuel false)
      else if ← accept .flowSequenceEnd then return []
      else
        let item ← node fuel false false
        return item :: (← flowItems fuel false)

def flowEntries : Nat → Bool → Read (List (Nat × Nat))
  | 0, _ => throw .malformed
  | fuel + 1, first => do
    if ← accept .flowMappingEnd then return []
    else
      if !first then expect .flowEntry
      if ← accept .key then
        let key ← nodeUnless fuel [.value, .flowEntry, .flowMappingEnd] false false
        let value ←
          if ← accept .value then nodeUnless fuel [.flowEntry, .flowMappingEnd] false false
          else addMissing
        return (key, value) :: (← flowEntries fuel false)
      else if ← accept .flowMappingEnd then return []
      else
        let key ← node fuel false false
        let value ← addMissing
        return (key, value) :: (← flowEntries fuel false)

end

/-! ## Documents -/

/-- The directives before a document, `fuel` of them at most: one version at most, and each handle
once. -/
def directives : Nat → Bool → Read Unit
  | 0, _ => throw .malformed
  | fuel + 1, versioned => do
    match ← next? with
    | some (.version major) =>
      skip
      if versioned || major != 1 then throw .malformed
      directives fuel true
    | some (.tagHandle handle start) =>
      skip
      if ((← get).handles.lookup handle).isSome then throw .malformed
      modify fun reading => { reading with handles := (handle, start) :: reading.handles }
      directives fuel versioned
    | some .otherDirective =>
      skip
      directives fuel versioned
    | _ => return ()

/-- The handles that every document has, unless its directives give them another meaning. -/
def standardHandles : List (Text × Text) := [("!", "!"), ("!!", coreTag)]

/-- Whether a token belongs to the marks and directives around documents. -/
def isDocumentBoundary : Token → Bool
  | .version _ | .tagHandle .. | .otherDirective | .documentStart | .documentEnd => true
  | _ => false

/-- Goes past marks of the end of a document, `fuel` of them at most. -/
def skipDocumentEnds : Nat → Read Unit
  | 0 => return ()
  | fuel + 1 => do if ← accept .documentEnd then skipDocumentEnds fuel

/-- Refuses anything behind the document but marks of its end. -/
def endOfText (fuel : Nat) : Read Unit := do
  skipDocumentEnds fuel
  if (← next?).isSome then
    modify fun reading => { reading with handles := [] }
    directives fuel false
    throw .malformed

def addStandardHandles : Read Unit :=
  modify fun reading => { reading with handles := reading.handles ++ standardHandles }

/-- The root of the document; there is none in a text without one. -/
def document (fuel : Nat) : Read (Option Nat) := do
  match ← next? with
  | none => return none
  | some token =>
    let root ←
      if isDocumentBoundary token && token != .documentEnd then
        directives fuel false
        expect .documentStart
        addStandardHandles
        if (← next?).all isDocumentBoundary then addMissing else node fuel true false
      else
        addStandardHandles
        node fuel true false
    endOfText fuel
    return some root

end Read

/-- The nodes of a text and the number of the root, if it has a document. -/
def Graph.ofText (text : Text) : Except Error (Graph × Option Nat) := do
  let (tokens, failure) := tokens text
  let (root, reading) ← (Read.document (3 * tokens.length + 3)).run
    { tokens, failure, anchors := [], handles := [], depth := 0, nodes := #[] }
  return (reading.nodes, root)

end SuiteDocs.Yaml
