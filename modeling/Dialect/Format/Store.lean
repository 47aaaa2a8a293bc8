import Dialect.Format.Resolved

-- Resolved formats as objects, which whoever holds one may change in place. An object has
-- parts that are objects themselves: its map of extensions, its warnings, and of these the
-- list of dropped names. Who holds a part of two objects sees it change in both.

namespace Dialect.Format

-- What a holder does to an object: a change of each part, in its place.
structure Edit where
  baseName : String → String := id
  fullName : String → String := id
  extensions : Entries String Bool → Entries String Bool := id
  invalidFormat : String → String := id
  invalidOptions : List String → List String := id

def Edit.apply (e : Edit) (r : Resolved) : Resolved :=
  { baseName := e.baseName r.baseName
    fullName := e.fullName r.fullName
    extensions := e.extensions r.extensions
    warnings := ⟨e.invalidFormat r.warnings.invalidFormat,
      e.invalidOptions r.warnings.invalidOptions⟩ }

namespace Store

-- An object as it lies in a store: its parts are named by their places.
structure Body where
  baseName : String
  fullName : String
  extensions : Nat
  warnings : Nat
deriving Repr

structure Remarks where
  invalidFormat : String
  invalidOptions : Nat
deriving Repr

end Store

-- All objects that were ever made, each kind in a list of its own.
structure Store where
  bodies : List Store.Body
  maps : List (Entries String Bool)
  remarks : List Store.Remarks
  names : List (List String)
deriving Repr

namespace Store

def empty : Store :=
  ⟨[], [], [], []⟩

-- What an object says now.
def read? (store : Store) (object : Nat) : Option Resolved := do
  let body ← store.bodies[object]?
  let extensions ← store.maps[body.extensions]?
  let remarks ← store.remarks[body.warnings]?
  let invalidOptions ← store.names[remarks.invalidOptions]?
  return ⟨body.baseName, body.fullName, extensions, ⟨remarks.invalidFormat, invalidOptions⟩⟩

-- A new object, all of its parts new as well.
def make (store : Store) (r : Resolved) : Nat × Store :=
  (store.bodies.length,
    { bodies := store.bodies ++
        [⟨r.baseName, r.fullName, store.maps.length, store.remarks.length⟩]
      maps := store.maps ++ [r.extensions]
      remarks := store.remarks ++ [⟨r.warnings.invalidFormat, store.names.length⟩]
      names := store.names ++ [r.warnings.invalidOptions] })

-- A copy down to the last part. What cannot be read has no copy but itself.
def copy (store : Store) (object : Nat) : Nat × Store :=
  match store.read? object with
  | some r => store.make r
  | none => (object, store)

-- Change an object where it lies.
def edit (store : Store) (object : Nat) (e : Edit) : Store :=
  match store.bodies[object]? with
  | none => store
  | some body =>
    { bodies := store.bodies.modify object fun b =>
        { b with baseName := e.baseName b.baseName, fullName := e.fullName b.fullName }
      maps := store.maps.modify body.extensions e.extensions
      remarks := store.remarks.modify body.warnings fun w =>
        { w with invalidFormat := e.invalidFormat w.invalidFormat }
      names := match store.remarks[body.warnings]? with
        | some w => store.names.modify w.invalidOptions e.invalidOptions
        | none => store.names }

end Store

end Dialect.Format
