import Dialect.Format.Resolved
import Dialect.Json.Writer

-- The written record of a resolved format. Reading one back is lenient: names and warnings
-- may be any values, and the state of an extension is whether its value counts as true.

namespace Dialect.Format

structure Record where
  baseName : Json
  fullName : Json
  extensions : Entries Text Bool
  invalidFormat : Json
  invalidOptions : List Json
deriving DecidableEq, Repr

-- Why a value is no record: a member is missing; a value that should have members has
-- none; or one that should be a sequence is none.
inductive RecordError where
  | missing (name : Text)
  | notIndexable
  | noMembers
  | notSequence
deriving DecidableEq, Repr

namespace Record

def ofResolved (r : Resolved) : Record :=
  { baseName := .str r.baseName
    fullName := .str r.fullName
    extensions := r.extensions.map fun (name, on) => (Text.of name, on)
    invalidFormat := .str r.warnings.invalidFormat
    invalidOptions := r.warnings.invalidOptions.map fun name => .str (Text.of name) }

def warningsJson (r : Record) : Json :=
  .obj [("invalidFormat", r.invalidFormat), ("invalidOptions", .arr r.invalidOptions)]

def toJson (r : Record) : Json :=
  .obj [("baseName", r.baseName), ("fullName", r.fullName),
    ("extensions", .obj (r.extensions.map fun (name, on) => (name, .bool on))),
    ("warnings", r.warningsJson)]

-- A required member.
def required (name : Text) (data : Json) : Except RecordError Json :=
  match data with
  | .obj entries =>
    match Entries.get? name entries with
    | some v => .ok v
    | none => .error (.missing name)
  | _ => .error .notIndexable

-- The members of an optional member; none if it is not there.
def membersOf (value : Option Json) : Except RecordError (Entries Text Json) :=
  match value with
  | none => .ok []
  | some (.obj entries) => .ok entries
  | some _ => .error .noMembers

-- A value as a sequence: the characters of a text, the names of an object.
def sequenceOf (value : Option Json) : Except RecordError (List Json) :=
  match value with
  | none => .ok []
  | some (.arr items) => .ok items
  | some (.str s) => .ok (s.map fun c => .str [c])
  | some (.obj entries) => .ok (entries.map fun e => .str e.1)
  | some _ => .error .notSequence

def ofJson (data : Json) : Except RecordError Record := do
  let baseName ← required "baseName" data
  let fullName ← required "fullName" data
  let extensions ← membersOf (data.member? "extensions")
  let warnings ← membersOf (data.member? "warnings")
  let invalidOptions ← sequenceOf (Entries.get? ("invalidOptions" : Text) warnings)
  return {
    baseName
    fullName
    extensions := extensions.map fun (name, value) => (name, value.truthy)
    invalidFormat := (Entries.get? ("invalidFormat" : Text) warnings).getD (.str "")
    invalidOptions }

def hasWarnings (r : Record) : Bool :=
  r.invalidFormat.truthy || !r.invalidOptions.isEmpty

-- The record in ASCII.
def text (r : Record) (indent : Option Nat) : Text :=
  r.toJson.render ⟨indent, true⟩

-- Equal whatever the order of the extensions.
def same (a b : Record) : Bool :=
  a.baseName == b.baseName && a.fullName == b.fullName &&
    Entries.sameBindings (· == ·) a.extensions b.extensions &&
    a.invalidFormat == b.invalidFormat && a.invalidOptions == b.invalidOptions

end Record

def Resolved.text (r : Resolved) (indent : Option Nat) : Text :=
  (Record.ofResolved r).text indent

end Dialect.Format
