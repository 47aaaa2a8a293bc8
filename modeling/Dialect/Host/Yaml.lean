import Dialect.Config.File
import Dialect.Host.Yaml.Node
import Dialect.Host.Yaml.Number

-- YAML documents as values, as far as a machine needs a reader to run on. A mapping that holds
-- itself is refused, and so are bytes and sets.

namespace Dialect.Host.Yaml

def core (name : String) : String := "tag:yaml.org,2002:" ++ name

-- The full tag of a scalar.
def scalarTag (tag : Tag) (text : Text) : String :=
  match tag with
  | .named name => name
  | .kind => core "str"
  | .plain =>
    match (text.string?.map meaning).getD .text with
    | .nothing => core "null"
    | .truth => core "bool"
    | .whole => core "int"
    | .double => core "float"
    | .moment => core "timestamp"
    | .merge => core "merge"
    | .default => core "value"
    | .text => core "str"

def truth (text : String) : Except Error Setting :=
  let word := String.ofList (text.toList.map Char.toLower)
  if ["yes", "true", "on"].contains word then .ok (.bool true)
  else if ["no", "false", "off"].contains word then .ok (.bool false)
  else .error (.badTruth word)

-- The value of a scalar with a tag.
def scalarValue (tag : String) (text : Text) : Except Error Setting :=
  match text.string? with
  | none => if tag = core "str" then .ok (.str text) else .error .malformed
  | some s =>
    if tag = core "str" then .ok (.str text)
    else if tag = core "null" then .ok .null
    else if tag = core "bool" then truth s
    else if tag = core "int" then (whole s).map .int
    else if tag = core "float" then (double s).map .double
    else if tag = core "timestamp" then (moment s).map .other
    else .error .malformed

def isMergeKey : Node → Bool
  | .scalar tag text => scalarTag tag text == core "merge"
  | _ => false

-- A lone equals sign as a key is text.
def keyNode : Node → Node
  | .scalar tag text =>
    if scalarTag tag text = core "value" then .scalar .kind text else .scalar tag text
  | n => n

-- The pairs of a mapping with those of the mappings that it merges in front; the fuel bounds
-- the nesting.
def flatten : Nat → List (Node × Node) → Except Error (List (Node × Node))
  | 0, _ => .error .malformed
  | fuel + 1, pairs => do
    let merged ← pairs.mapM fun (k, v) =>
      if isMergeKey k then
        match v with
        | .mapping _ inner => flatten fuel inner
        | .sequence _ items => do
          let parts ← items.mapM fun n => match n with
            | .mapping _ inner => flatten fuel inner
            | _ => throw Error.malformed
          return parts.reverse.flatten
        | .scalar _ _ => throw .malformed
      else return []
    return merged.flatten ++
      ((pairs.filter fun p => !isMergeKey p.1).map fun p => (keyNode p.1, p.2))

-- Write a value under a key; keys that are equal as numbers are one, as it was written first.
def putKey (key value : Setting) : List (Setting × Setting) → List (Setting × Setting)
  | [] => [(key, value)]
  | (k, v) :: rest =>
    if k.equivalent key then (k, value) :: rest else (k, v) :: putKey key value rest

def keyOf : Setting → Key
  | .str t => .text t
  | v => .other v.literal

def isKey : Setting → Bool
  | .arr _ => false
  | .obj _ => false
  | _ => true

-- A pair of a list of pairs.
def onlyPair? : Node → Option (Node × Node)
  | .mapping _ [p] => some p
  | _ => none

-- The value of a node. The fuel bounds its nesting.
def value : Nat → Node → Except Error Setting
  | 0, _ => .error .malformed
  | fuel + 1, node =>
    match node with
    | .scalar tag text => scalarValue (scalarTag tag text) text
    | .sequence tag items =>
      if tag = .kind ∨ tag = .plain ∨ tag = .named (core "seq") then
        (items.mapM (value fuel)).map .arr
      else if tag = .named (core "omap") ∨ tag = .named (core "pairs") then do
        let pairs ← items.mapM fun n => match onlyPair? n with
          | some (k, v) => do return Setting.arr [← value fuel k, ← value fuel v]
          | none => throw Error.malformed
        return .arr pairs
      else .error .malformed
    | .mapping tag pairs =>
      if tag = .kind ∨ tag = .plain ∨ tag = .named (core "map") then do
        let pairs ← flatten fuel pairs
        let values ← pairs.mapM fun (k, v) => do
          let k ← value fuel k
          if !isKey k then throw Error.malformed
          return (k, ← value fuel v)
        let entries := values.foldl (fun m (k, v) => putKey k v m) []
        return .obj (entries.map fun (k, v) => (keyOf k, v))
      else .error .malformed

-- Characters that a YAML text may hold.
def isAllowed (c : Char) : Bool :=
  let n := c.toNat
  n == 9 || n == 10 || n == 13 || (0x20 ≤ n && n ≤ 0x7E) || n == 0x85 ||
    (0xA0 ≤ n && n ≤ 0xFFFD) || 0x10000 ≤ n

-- The value of the only document of a text; null if there is none.
def read (text : String) : Except Error Setting := do
  let s := text.toList
  if !s.all isAllowed then throw .malformed
  match ← Node.ofText s with
  | none => return .null
  | some node => value (s.length + 2) node

def kindOf : Error → String
  | .badTruth _ => "KeyError"
  | .noMoment => "AttributeError"
  | .noDigits => "IndexError"
  | _ => "ValueError"

-- The reader as a machine has it.
def reader (text : String) : Except Config.YamlError Config.Content :=
  match read text with
  | .ok v => .ok (.value v)
  | .error .malformed => .error (.malformed none)
  | .error e => .error (.other (kindOf e) e.message)

end Dialect.Host.Yaml
