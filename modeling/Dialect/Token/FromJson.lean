import Dialect.Json.Basic
import Dialect.Token.Basic

-- Trees as JSON. An object with a t member is a token, whose payload is its c member;
-- every other value keeps its shape.

namespace Dialect

namespace Value

def tagKey : Text := "t"
def payloadKey : Text := "c"

mutual

-- The tree that a JSON value writes; the first tag that is no text, if there is one.
-- Of a token only t and c are looked at.
def ofJson : Json → Except Json Value
  | .null => .ok .null
  | .bool b => .ok (.bool b)
  | .int i => .ok (.int i)
  | .double d => .ok (.double d)
  | .str s => .ok (.str s)
  | .arr items => (ofJsonItems items).map .list
  | .obj entries =>
    match Entries.get? tagKey entries with
    | none => (ofJsonEntries entries).map .map
    | some (.str tag) => (payloadOf entries).map (.token tag)
    | some tag => .error tag

def ofJsonItems : List Json → Except Json (List Value)
  | [] => .ok []
  | a :: rest =>
    match ofJson a with
    | .error tag => .error tag
    | .ok v => (ofJsonItems rest).map (v :: ·)

def ofJsonEntries : List (Text × Json) → Except Json (List (Text × Value))
  | [] => .ok []
  | (k, a) :: rest =>
    match ofJson a with
    | .error tag => .error tag
    | .ok v => (ofJsonEntries rest).map ((k, v) :: ·)

-- The c member among the members of a token; null without one.
def payloadOf : List (Text × Json) → Except Json Value
  | [] => .ok .null
  | (k, a) :: rest => if k = payloadKey then ofJson a else payloadOf rest

end

mutual

-- The JSON of a tree. A token without a payload has no c member.
def toJson : Value → Json
  | .null => .null
  | .bool b => .bool b
  | .int i => .int i
  | .double d => .double d
  | .str s => .str s
  | .list items => .arr (toJsonItems items)
  | .map entries => .obj (toJsonEntries entries)
  | .token tag payload =>
    match payload with
    | .null => .obj [(tagKey, .str tag)]
    | _ => .obj [(tagKey, .str tag), (payloadKey, toJson payload)]

def toJsonItems : List Value → List Json
  | [] => []
  | v :: rest => toJson v :: toJsonItems rest

def toJsonEntries : List (Text × Value) → List (Text × Json)
  | [] => []
  | (k, v) :: rest => (k, toJson v) :: toJsonEntries rest

end

end Value

end Dialect
