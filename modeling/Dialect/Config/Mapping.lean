import Dialect.Config.Literal
import Dialect.Config.Store

-- What a configuration file writes. A reader may give a mapping that holds itself; such a one has
-- no end as a value, and stays an object.

namespace Dialect.Config

-- A mapping by its place among others. What it holds may lead back to it.
structure Knot where
  store : Store
  place : Nat
deriving DecidableEq, Repr

inductive Content where
  | value (v : Setting)
  | knot (k : Knot)
deriving DecidableEq, Repr

inductive Mapping where
  | entries (table : Entries Key Setting)
  | knot (k : Knot)
deriving DecidableEq, Repr

namespace Store

def bodyAt (s : Store) (place : Nat) : Entries Key Held :=
  (s.bodies[place]?).getD []

def moved (distance : Nat) : Held → Held
  | .value v => .value v
  | .mapping place => .mapping (place + distance)

-- The mappings of two stores in one, those of the second behind those of the first.
def joined (s t : Store) : Store :=
  ⟨s.bodies ++ t.bodies.map fun body => body.map fun e => (e.1, moved s.bodies.length e.2)⟩

-- What is held as messages show it. Of a mapping that is just being shown there is only a hint.
-- The bound is on the nesting.
def literal (s : Store) : Nat → List Nat → Held → String
  | _, _, .value v => v.literal
  | 0, _, .mapping _ => hint
  | bound + 1, open_, .mapping place =>
    if place ∈ open_ then hint
    else
      let members := (s.bodyAt place).map fun e =>
        e.1.literal ++ ": " ++ literal s bound (place :: open_) e.2
      "\x7b" ++ ", ".intercalate members ++ "\x7d"
where
  hint : String := "\x7b...\x7d"

-- What is held as a value. A mapping is one by how it is shown.
def setting (s : Store) : Held → Setting
  | .value v => v
  | .mapping place =>
    let shown := s.literal (s.bodies.length + 1) [] (.mapping place)
    .other
      { kind := "dict"
        fullKind := "dict"
        literal := shown
        text := shown
        truthy := !(s.bodyAt place).isEmpty
        number? := none }

end Store

namespace Mapping

-- The values of the keys.
def settings : Mapping → Entries Key Setting
  | entries e => e
  | knot k => (k.store.bodyAt k.place).map fun e => (e.1, k.store.setting e.2)

def toKnot : Mapping → Knot
  | knot k => k
  | entries e =>
    let (body, s) := Store.empty.holdEntries e
    ⟨⟨s.bodies ++ [body]⟩, s.bodies.length⟩

-- Lay a mapping over another; nothing if that has no end. There is no end exactly if two mappings
-- meet while they are being merged already, so the pairs of mappings bound the nesting. Over an
-- empty one, and under an empty one, the other stays as it is.
def mergeWith (base upper : Mapping) : Option Mapping :=
  match base, upper with
  | entries base, entries upper => some (.entries (merge base upper))
  | entries [], upper => some upper
  | base, entries [] => some base
  | base, upper =>
    let lower := base.toKnot
    let upper := upper.toKnot
    let bound := lower.store.bodies.length * upper.store.bodies.length + 1
    ((lower.store.joined upper.store).merge bound lower.place
      (upper.place + lower.store.bodies.length)).map fun (place, s) => .knot ⟨s, place⟩

end Mapping

end Dialect.Config
