-- Maps that remember the order in which their keys came: the members of a JSON object, the
-- extensions of a dialect, the settings of a configuration.

namespace Dialect

abbrev Entries (κ α : Type) := List (κ × α)

namespace Entries

variable {κ α : Type}

def keys (entries : Entries κ α) : List κ :=
  entries.map Prod.fst

variable [DecidableEq κ]

def get? (key : κ) : Entries κ α → Option α
  | [] => none
  | (k, v) :: rest => if k = key then some v else get? key rest

def has (entries : Entries κ α) (key : κ) : Bool :=
  (get? key entries).isSome

-- Write a value under a key. A key that is there keeps its place, a new one goes last.
def put (key : κ) (value : α) : Entries κ α → Entries κ α
  | [] => [(key, value)]
  | (k, v) :: rest => if k = key then (key, value) :: rest else (k, v) :: put key value rest

-- Write many pairs, one after the other.
def putAll (entries : Entries κ α) (pairs : List (κ × α)) : Entries κ α :=
  pairs.foldl (fun m p => put p.1 p.2 m) entries

-- The map that a list of pairs describes: the first place and the last value of each key.
def ofPairs (pairs : List (κ × α)) : Entries κ α :=
  putAll [] pairs

def erase (key : κ) : Entries κ α → Entries κ α
  | [] => []
  | (k, v) :: rest => if k = key then rest else (k, v) :: erase key rest

-- Two maps with the same bindings, whatever the order of their keys.
def sameBindings (same : α → α → Bool) (a b : Entries κ α) : Bool :=
  a.length == b.length &&
    a.all fun (k, v) => match get? k b with
      | some w => same v w
      | none => false

end Entries

end Dialect
