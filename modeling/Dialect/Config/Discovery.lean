import Dialect.Config.File
import Dialect.Config.Merge
import Dialect.Log.Basic

-- Which configuration files are used: one near the working directory or in the home
-- directory, and one that is named, which is laid over it.

namespace Dialect.Config

-- The names that are looked for in a directory, in this order.
def fileNames : List String :=
  [".panbridge.toml", ".panbridge.yaml", ".panbridge.yml", ".panbridge.json"]

def logger : String := "panbridge.cli.config"

-- A search with the records that it wrote and the files that it loaded. To look into a project
-- file for settings is not to load it.
structure Search (α : Type) where
  records : List Log.Record
  loaded : List Path
  result : Except LoadError α

namespace Search

def done {α : Type} (a : α) : Search α := ⟨[], [], .ok a⟩

def of {α : Type} (result : Except LoadError α) : Search α := ⟨[], [], result⟩

def note (message : String) : Search Unit := ⟨[⟨Log.debug, logger, message⟩], [], .ok ()⟩

def andThen {α β : Type} (s : Search α) (next : α → Search β) : Search β :=
  match s.result with
  | .ok a =>
    ⟨s.records ++ (next a).records, s.loaded ++ (next a).loaded, (next a).result⟩
  | .error e => ⟨s.records, s.loaded, .error e⟩

instance : Monad Search where
  pure := done
  bind := andThen

end Search

namespace Surroundings

variable (w : Surroundings)

-- The first of some paths with a file.
def firstFile : List Path → Except LoadError (Option Path)
  | [] => .ok none
  | path :: rest => do
    if ← w.isFile path then return some path
    firstFile rest

-- The project file of a directory, if it holds settings of ours. One that cannot be read is
-- passed over with a record.
def usableProject (directory : Path) : Search (Option Path) :=
  let project := directory.child projectFile
  (Search.of (w.isFile project)).andThen fun isFile =>
    if isFile then
      match w.projectSection project with
      | .ok section_ => .done (if section_.isEmpty then none else some project)
      | .error e =>
        if e.isReported then
          (Search.note ("Skipping " ++ project.text ++ ": " ++ e.message)).andThen
            fun _ => .done none
        else .of (.error e)
    else .done none

-- The configuration file of a directory.
def usableIn (directory : Path) : Search (Option Path) :=
  (Search.of (w.firstFile (fileNames.map directory.child))).andThen fun found =>
    match found with
    | some path => .done (some path)
    | none => w.usableProject directory

-- The first directory with a configuration file.
def firstUsable : List Path → Search (Option Path)
  | [] => .done none
  | directory :: rest =>
    (w.usableIn directory).andThen fun found =>
      match found with
      | some path => .done (some path)
      | none => firstUsable rest

-- A path from the root.
def resolve (path : Path) : Except LoadError Path :=
  if path.hasNul then .error (.lookup .nulByte) else .ok (Path.settle w.cwd path)

-- Search a directory and those around it.
def findFrom (start : Path) : Search (Option Path) :=
  (Search.of (w.resolve start)).andThen fun directory => w.firstUsable directory.upwards

-- Search from the working directory up, then in the home directory.
def discover : Search (Option Path) :=
  (w.findFrom w.cwd).andThen fun found =>
    match found with
    | some path => .done (some path)
    | none => .of (w.firstFile (fileNames.map w.home.child))

-- The path that is named: the explicit one, or else that of the environment. An empty name
-- is none.
def selected (explicit environment : Option String) : Option String :=
  let named (s : Option String) : Option String := s.bind fun s => if s = "" then none else some s
  (named explicit).orElse fun _ => named environment

-- Whether the path that is named is the discovered one.
def sameFile (chosen : Option String) (discovered : Path) : Except LoadError Bool :=
  match chosen with
  | none => .ok false
  | some c => do return (← w.resolve (Path.ofText c)) == (← w.resolve discovered)

-- Load a file, as a step of a search.
def loading (path : Path) : Search Mapping :=
  ⟨[], [path], w.load path⟩

def merged (base upper : Mapping) : Except LoadError Mapping :=
  match base.mergeWith upper with
  | some mapping => .ok mapping
  | none => .error .endless

-- The configuration in force. A named file that is the discovered one is read once.
def configuration (explicit environment : Option String) : Search Mapping := do
  let discovered ← w.discover
  let chosen := selected explicit environment
  let base ← match discovered with
    | none => pure (.entries [])
    | some path => do
      if ← Search.of (w.sameFile chosen path) then pure (.entries [])
      else do
        Search.note ("Loading discovered configuration " ++ path.text)
        w.loading path
  match chosen with
  | none => return base
  | some c => do
    Search.note ("Loading configuration " ++ c)
    let upper ← w.loading (Path.ofText c)
    Search.of (merged base upper)

end Surroundings

end Dialect.Config
