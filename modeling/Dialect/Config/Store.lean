import Dialect.Config.Merge

-- Mappings as objects, which whoever holds one may change in place. A mapping holds other
-- mappings by their places; two may hold the same one, and see it change together.

namespace Dialect.Setting

mutual

-- How deep mappings are nested in a value.
def nesting : Setting → Nat
  | .obj entries => nestingIn entries + 1
  | _ => 0

def nestingIn : List (Key × Setting) → Nat
  | [] => 0
  | (_, v) :: rest => max (nesting v) (nestingIn rest)

end

end Dialect.Setting

namespace Dialect.Config

-- What a mapping holds under a key: a value, or a mapping at a place.
inductive Held where
  | value (v : Setting)
  | mapping (place : Nat)
deriving DecidableEq, Repr

-- All mappings that were ever made.
structure Store where
  bodies : List (Entries Key Held)
deriving DecidableEq, Repr

namespace Store

def empty : Store := ⟨[]⟩

-- Write under a key of a mapping, where it lies.
def write (s : Store) (place : Nat) (key : Key) (held : Held) : Store :=
  ⟨s.bodies.modify place (Entries.put key held)⟩

-- Write what a key of the upper mapping holds into a mapping. Where both hold a mapping, it is
-- one that is merged from the two.
def writeOver (merged : Store → Nat → Nat → Option (Nat × Store)) (place : Nat) (s : Store)
    (entry : Key × Held) : Option Store := do
  let body ← s.bodies[place]?
  match Entries.get? entry.1 body, entry.2 with
  | some (.mapping old), .mapping new =>
    let (result, s) ← merged s old new
    return s.write place entry.1 (.mapping result)
  | _, held => return s.write place entry.1 held

-- Lay a mapping over another: into a copy of the lower one, which holds the same mappings as
-- that, goes what the upper one holds. Answers the place of the result. The bound is on the
-- nesting.
def merge : Nat → Store → Nat → Nat → Option (Nat × Store)
  | 0, _, _, _ => none
  | bound + 1, s, base, upper => do
    let lower ← s.bodies[base]?
    let entries ← s.bodies[upper]?
    let place := s.bodies.length
    let s ← entries.foldlM (writeOver (merge bound) place) ⟨s.bodies ++ [lower]⟩
    return (place, s)

-- Lay mappings over one another, from the lowest up; answers the place of every stage.
def mergeAll (bound : Nat) (s : Store) (base : Nat) : List Nat → Option (List Nat × Store)
  | [] => some ([], s)
  | upper :: rest => do
    let (now, s) ← s.merge bound base upper
    let (stages, s) ← mergeAll bound s now rest
    return (now :: stages, s)

mutual

-- A value with each of its mappings as a new object.
def holdValue (s : Store) : Setting → Held × Store
  | .obj entries =>
    let (body, s) := holdEntries s entries
    (.mapping s.bodies.length, ⟨s.bodies ++ [body]⟩)
  | v => (.value v, s)

def holdEntries (s : Store) : List (Key × Setting) → Entries Key Held × Store
  | [] => ([], s)
  | (key, v) :: rest =>
    let (held, s) := holdValue s v
    let (body, s) := holdEntries s rest
    ((key, held) :: body, s)

end

-- What a mapping or value says now.
def read? : Nat → Store → Held → Option Setting
  | _, _, .value v => some v
  | 0, _, .mapping _ => none
  | bound + 1, s, .mapping place => do
    let body ← s.bodies[place]?
    let entries ← body.mapM fun (key, held) => do return (key, ← read? bound s held)
    return .obj entries

end Store

end Dialect.Config
