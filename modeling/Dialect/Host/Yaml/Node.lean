import Dialect.Host.Yaml.Lexeme
import Dialect.Entries

-- The node tree of a YAML document: every node has its tag, and an alias is the node that
-- it names.

namespace Dialect.Host.Yaml

-- How the tag of a node is given: not at all for a plain scalar, not at all otherwise, or
-- in full. The lone exclamation mark counts as no tag on a plain scalar.
inductive Tag where
  | plain
  | kind
  | named (name : String)
deriving DecidableEq, Repr

inductive Node where
  | scalar (tag : Tag) (text : Text)
  | sequence (tag : Tag) (items : List Node)
  | mapping (tag : Tag) (pairs : List (Node × Node))
deriving Repr

namespace Node

-- A document while its lexemes are read: those that are left, the fault behind the last one,
-- the nodes that have names, the names that are given so far, and the tag handles.
structure Reading where
  rest : List Lexeme
  fault : Option Error
  named : Entries String Node
  given : List String
  handles : Entries String String

abbrev Read := StateT Reading (Except Error)

-- The next lexeme; none at the end of the text.
def peek : Read (Option Lexeme) := do
  let r ← get
  match r.rest, r.fault with
  | [], some e => throw e
  | [], none => return none
  | l :: _, _ => return some l

def drop : Read Unit :=
  modify fun r => { r with rest := r.rest.tail }

-- Take the next lexeme if it is the given one.
def takes (l : Lexeme) : Read Bool := do
  if (← peek) = some l then
    drop
    return true
  else return false

def expect (l : Lexeme) : Read Unit := do
  if !(← takes l) then throw .malformed

def nextIn (ls : List Lexeme) : Read Bool := do
  match ← peek with
  | some l => return ls.contains l
  | none => return false

-- A node without text, where none is written.
def empty : Node := .scalar .plain []

def standardHandles : Entries String String :=
  [("!", "!"), ("!!", "tag:yaml.org,2002:")]

def tagOf (handle : Option String) (suffix : String) : Read String := do
  match handle with
  | none => return suffix
  | some h =>
    match Entries.get? h (← get).handles with
    | some expansion => return expansion ++ suffix
    | none => throw .malformed

-- The anchor and the tag in front of a node, in any order.
def properties : Read (Option String × Option String) := do
  match ← peek with
  | some (.anchor name) =>
    drop
    match ← peek with
    | some (.tag handle suffix) =>
      drop
      return (some name, some (← tagOf handle suffix))
    | _ => return (some name, none)
  | some (.tag handle suffix) =>
    drop
    match ← peek with
    | some (.anchor name) =>
      drop
      return (some name, some (← tagOf handle suffix))
    | _ => return (none, some (← tagOf handle suffix))
  | _ => return (none, none)

-- An anchor may be given once in a document.
def give (anchor : Option String) : Read Unit := do
  match anchor with
  | none => return
  | some name =>
    if (← get).given.contains name then throw .malformed
    modify fun r => { r with given := name :: r.given }

def collectionTag (tag : Option String) : Tag :=
  match tag with
  | none => .kind
  | some name => if name = "!" then .kind else .named name

def scalarTag (tag : Option String) (plain : Bool) : Tag :=
  match tag with
  | none => if plain then .plain else .kind
  | some name => if name = "!" then .plain else .named name

-- A node to be read: whether it may be a block collection, and whether a sequence may stand
-- there without indentation.
structure Place where
  block : Bool
  bare : Bool

def blockPlace : Place := ⟨true, false⟩
def valuePlace : Place := ⟨true, true⟩
def flowPlace : Place := ⟨false, false⟩

mutual

-- A node. The fuel bounds the nesting of calls; a few calls for each lexeme are enough.
def read (fuel : Nat) (place : Place) : Read Node :=
  match fuel with
  | 0 => throw .malformed
  | fuel + 1 => do
    match ← peek with
    | some (.alias name) =>
      drop
      match Entries.get? name (← get).named with
      | some node => return node
      | none => throw .malformed
    | _ =>
      let (anchor, tag) ← properties
      give anchor
      let node ← readContent fuel place tag anchor.isSome
      match anchor with
      | some name => modify fun r => { r with named := Entries.put name node r.named }
      | none => pure ()
      return node

-- What follows the anchor and the tag of a node.
def readContent (fuel : Nat) (place : Place) (tag : Option String) (anchored : Bool) :
    Read Node :=
  match fuel with
  | 0 => throw .malformed
  | fuel + 1 => do
    match ← peek with
    | some .blockEntry =>
      if place.bare then return .sequence (collectionTag tag) (← readBareItems fuel)
      else if anchored || tag.isSome then return .scalar (scalarTag tag true) []
      else throw .malformed
    | some (.scalar text plain) =>
      drop
      return .scalar (scalarTag tag plain) text
    | some .flowSequence =>
      drop
      return .sequence (collectionTag tag) (← readFlowItems fuel true)
    | some .flowMapping =>
      drop
      return .mapping (collectionTag tag) (← readFlowPairs fuel true)
    | some .blockSequence =>
      if place.block then
        drop
        return .sequence (collectionTag tag) (← readBlockItems fuel)
      else if anchored || tag.isSome then return .scalar (scalarTag tag true) []
      else throw .malformed
    | some .blockMapping =>
      if place.block then
        drop
        return .mapping (collectionTag tag) (← readBlockPairs fuel)
      else if anchored || tag.isSome then return .scalar (scalarTag tag true) []
      else throw .malformed
    | _ =>
      if anchored || tag.isSome then return .scalar (scalarTag tag true) []
      else throw .malformed

-- The items of a block sequence.
def readBlockItems (fuel : Nat) : Read (List Node) :=
  match fuel with
  | 0 => throw .malformed
  | fuel + 1 => do
    if ← takes .blockEntry then
      let item ← if ← nextIn [.blockEntry, .blockEnd] then pure empty else read fuel blockPlace
      return item :: (← readBlockItems fuel)
    else
      expect .blockEnd
      return []

-- The items of a sequence that is not indented within its mapping.
def readBareItems (fuel : Nat) : Read (List Node) :=
  match fuel with
  | 0 => throw .malformed
  | fuel + 1 => do
    if ← takes .blockEntry then
      let item ← if ← nextIn [.blockEntry, .key, .value, .blockEnd] then pure empty
        else read fuel blockPlace
      return item :: (← readBareItems fuel)
    else return []

-- The pairs of a block mapping.
def readBlockPairs (fuel : Nat) : Read (List (Node × Node)) :=
  match fuel with
  | 0 => throw .malformed
  | fuel + 1 => do
    if ← takes .key then
      let ends := [Lexeme.key, .value, .blockEnd]
      let key ← if ← nextIn ends then pure empty else read fuel valuePlace
      let value ← if ← takes .value then
          if ← nextIn ends then pure empty else read fuel valuePlace
        else pure empty
      return (key, value) :: (← readBlockPairs fuel)
    else
      expect .blockEnd
      return []

-- The items of a flow sequence. A pair in it is a mapping of its own.
def readFlowItems (fuel : Nat) (first : Bool) : Read (List Node) :=
  match fuel with
  | 0 => throw .malformed
  | fuel + 1 => do
    if ← takes .flowSequenceEnd then return []
    if !first then expect .flowEntry
    if ← takes .key then
      let ends := [Lexeme.flowEntry, .flowSequenceEnd]
      let key ← if ← nextIn (.value :: ends) then pure empty else read fuel flowPlace
      let value ← if ← takes .value then
          if ← nextIn ends then pure empty else read fuel flowPlace
        else pure empty
      return .mapping .kind [(key, value)] :: (← readFlowItems fuel false)
    else if ← takes .flowSequenceEnd then return []
    else
      let item ← read fuel flowPlace
      return item :: (← readFlowItems fuel false)

-- The pairs of a flow mapping.
def readFlowPairs (fuel : Nat) (first : Bool) : Read (List (Node × Node)) :=
  match fuel with
  | 0 => throw .malformed
  | fuel + 1 => do
    if ← takes .flowMappingEnd then return []
    if !first then expect .flowEntry
    let ends := [Lexeme.flowEntry, .flowMappingEnd]
    if ← takes .key then
      let key ← if ← nextIn (.value :: ends) then pure empty else read fuel flowPlace
      let value ← if ← takes .value then
          if ← nextIn ends then pure empty else read fuel flowPlace
        else pure empty
      return (key, value) :: (← readFlowPairs fuel false)
    else if ← takes .flowMappingEnd then return []
    else
      let key ← read fuel flowPlace
      return (key, empty) :: (← readFlowPairs fuel false)

end

-- The directives in front of a document. There is one version at most, of the first kind,
-- and a handle is set once.
def directives : Nat → Bool → Entries String String → Read (Entries String String)
  | 0, _, handles => return handles
  | fuel + 1, versioned, handles => do
    match ← peek with
    | some (.version major) =>
      if versioned || major ≠ 1 then throw .malformed
      drop
      directives fuel true handles
    | some (.tagPrefix handle expansion) =>
      if handles.has handle then throw .malformed
      drop
      directives fuel versioned (Entries.put handle expansion handles)
    | some .otherDirective =>
      drop
      directives fuel versioned handles
    | _ => return handles

def skipDocumentEnds : Nat → Read Unit
  | 0 => return
  | fuel + 1 => do
    if ← takes .documentEnd then skipDocumentEnds fuel

def isDirective : Lexeme → Bool
  | .version _ => true
  | .tagPrefix _ _ => true
  | .otherDirective => true
  | _ => false

-- The head of a document up to its three dashes; they may be missing in front of the first
-- one. Answers whether there is a document, and whether its content may be missing.
def documentHead (fuel : Nat) : Read (Bool × Bool) := do
  let head ← peek
  match head with
  | none => return (false, false)
  | some l =>
    if !isDirective l && l ≠ .documentStart then
      modify fun r => { r with handles := standardHandles }
      return (true, false)
    let own ← directives fuel false []
    let all := standardHandles.filter (fun h => !own.has h.1) ++ own
    modify fun r => { r with handles := all }
    expect .documentStart
    return (true, true)

-- The only document of a text; none if the text is empty.
def document (fuel : Nat) : Read (Option Node) := do
  let (found, mayBeEmpty) ← documentHead fuel
  if !found then return none
  let ended ← match ← peek with
    | none => pure true
    | some l => pure (isDirective l || l = .documentStart || l = .documentEnd)
  let node ← if mayBeEmpty && ended then pure empty else read fuel blockPlace
  skipDocumentEnds fuel
  if (← peek).isSome then throw .malformed
  return some node

def ofText (text : List Char) : Except Error (Option Node) :=
  let (ls, fault) := lexemes text
  let fuel := 4 * ls.length + 8
  (document fuel).run' ⟨ls, fault, [], [], []⟩

end Node

end Dialect.Host.Yaml
