import Dialect.Config.Setting

-- The tables of a TOML document while it is read: what they hold so far, and which of them
-- may not be opened or changed any more.

namespace Dialect.Toml

abbrev Path := List Key

-- Change the table at a path. Missing tables on the way are made; of an array of tables
-- the last one is meant, where `lists` allows it. Nothing if a value is in the way.
def within (lists : Bool) (change : Entries Key Setting → Option (Entries Key Setting)) :
    Path → Entries Key Setting → Option (Entries Key Setting)
  | [], table => change table
  | k :: rest, table =>
    match Entries.get? k table with
    | none => (within lists change rest []).map fun t => Entries.put k (.obj t) table
    | some (.obj t) => (within lists change rest t).map fun t => Entries.put k (.obj t) table
    | some (.arr tables) =>
      match lists, tables.getLast? with
      | true, some (.obj t) =>
        (within lists change rest t).map fun t =>
          Entries.put k (.arr (tables.dropLast ++ [.obj t])) table
      | _, _ => none
    | some _ => none

-- Give a name its value, once.
def define (name : Key) (value : Setting) (table : Entries Key Setting) :
    Option (Entries Key Setting) :=
  if table.has name then none else some (Entries.put name value table)

-- Add an empty table to the array of tables under a name.
def appendTable (name : Key) (table : Entries Key Setting) : Option (Entries Key Setting) :=
  match Entries.get? name table with
  | none => some (Entries.put name (.arr [.obj []]) table)
  | some (.arr tables) => some (Entries.put name (.arr (tables ++ [.obj []])) table)
  | some _ => none

-- A path as the head of a key and its last name.
def splitLast (key : Path) : Path × Key :=
  (key.dropLast, key.getLast?.getD "")

-- A document while it is read. Inline values are closed for good; a table that was opened
-- or passed through by a dotted key cannot be opened again, the latter from the next
-- header on.
structure Draft where
  table : Entries Key Setting
  closed : List Path
  opened : List Path
  passed : List Path
  header : Path

namespace Draft

def empty : Draft := ⟨[], [], [], [], []⟩

-- The path or one that leads to it is closed.
def isClosed (d : Draft) (key : Path) : Bool :=
  d.closed.any fun p => p.isPrefixOf key

def isOpened (d : Draft) (key : Path) : Bool :=
  d.opened.contains key

-- The header [key].
def openTable (d : Draft) (key : Path) : Option Draft :=
  let d := { d with opened := d.opened ++ d.passed, passed := [] }
  if d.isOpened key || d.isClosed key then none
  else
    (within true some key d.table).map fun table =>
      { d with table, opened := key :: d.opened, header := key }

-- The header [[key]]: what was said of the tables below the last item is void.
def openItem (d : Draft) (key : Path) : Option Draft :=
  let d := { d with opened := d.opened ++ d.passed, passed := [] }
  if d.isClosed key then none
  else
    let outside (p : Path) : Bool := !key.isPrefixOf p
    let (parent, name) := splitLast key
    (within true (appendTable name) parent d.table).map fun table =>
      { d with
        table
        closed := d.closed.filter outside
        opened := key :: d.opened.filter outside
        header := key }

def isContainer : Setting → Bool
  | .arr _ => true
  | .obj _ => true
  | _ => false

-- The paths of the tables that a dotted key passes through.
def passedBy (header : Path) (parent : Path) : List Path :=
  (List.range parent.length).map fun n => header ++ parent.take (n + 1)

-- The line key = value.
def assign (d : Draft) (key : Path) (value : Setting) : Option Draft :=
  let (parent, name) := splitLast key
  let through := passedBy d.header parent
  if through.any d.isOpened || d.isClosed (d.header ++ parent) then none
  else
    (within true (define name value) (d.header ++ parent) d.table).map fun table =>
      { d with
        table
        passed := d.passed ++ through
        closed := if isContainer value then (d.header ++ key) :: d.closed else d.closed }

end Draft

-- An inline table while it is read.
structure InlineDraft where
  table : Entries Key Setting
  closed : List Path

def InlineDraft.assign (d : InlineDraft) (key : Path) (value : Setting) : Option InlineDraft :=
  if d.closed.any fun p => p.isPrefixOf key then none
  else
    let (parent, name) := splitLast key
    (within false (define name value) parent d.table).map fun table =>
      { table, closed := if Draft.isContainer value then key :: d.closed else d.closed }

end Dialect.Toml
