import Dialect.Config.Setting

-- Laying one configuration over another.

namespace Dialect.Config

mutual

-- The value of a key that has `old` below: two mappings are merged, anything else is
-- replaced.
def mergeValue (old : Option Setting) : Setting → Setting
  | .obj upper =>
    match old with
    | some (.obj base) => .obj (mergeEntries base upper)
    | _ => .obj upper
  | v => v

-- Lay a mapping over another, key by key. Keys that are there keep their places.
def mergeEntries (base : Entries Key Setting) : List (Key × Setting) → Entries Key Setting
  | [] => base
  | (k, v) :: rest => mergeEntries (Entries.put k (mergeValue (Entries.get? k base) v) base) rest

end

def merge (base upper : Entries Key Setting) : Entries Key Setting :=
  mergeEntries base upper

-- Lay mappings over one another, from the lowest up; answers every stage.
def mergeAll (base : Entries Key Setting) : List (Entries Key Setting) → List (Entries Key Setting)
  | [] => []
  | upper :: rest =>
    let now := merge base upper
    now :: mergeAll now rest

-- The value at a path of keys.
def lookup : List Key → Setting → Option Setting
  | [], v => some v
  | k :: rest, .obj entries => (Entries.get? k entries).bind (lookup rest)
  | _ :: _, _ => none

end Dialect.Config
