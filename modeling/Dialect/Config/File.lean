import Dialect.Config.Mapping
import Dialect.Config.Toml
import Dialect.File.Tree
import Dialect.Json.Reader
import Dialect.Text.Letter

-- Configuration files: which reader a file gets, and what can be wrong with it.

namespace Dialect.Config

inductive Format where
  | toml
  | json
  | yaml
deriving DecidableEq, Repr

def Format.label : Format → String
  | toml => "TOML"
  | json => "JSON"
  | yaml => "YAML"

def Format.ofSuffix? (suffix : String) : Option Format :=
  if suffix = ".toml" then some .toml
  else if suffix = ".json" then some .json
  else if suffix = ".yaml" ∨ suffix = ".yml" then some .yaml
  else none

-- What can be wrong with a configuration file. The first group is told to the user.
inductive LoadError where
  | missing (path : Path)
  | notFile (path : Path)
  | unknownFormat (suffix : String)
  | invalid (format : Format) (path : Path) (detail : Option String)
  | notMapping (path : Path) (kind : String)
  | sectionNotTable (path : Path) (kind : String)
  | unreadable (path : Path) (error : OsError)
  -- the file is no UTF-8 text
  | undecodable (error : Utf8.DecodeError)
  -- the tools of a project file are no table
  | toolsNotTable
  -- the reader of YAML fails in a way of its own
  | yaml (kind message : String)
  -- the file cannot be looked up
  | lookup (error : PathError)
  -- two mappings that hold themselves cannot be merged
  | endless
deriving DecidableEq, Repr

namespace LoadError

-- Whether an error is told to the user as a fault of the file.
def isReported : LoadError → Bool
  | missing _ => true
  | notFile _ => true
  | unknownFormat _ => true
  | invalid _ _ _ => true
  | notMapping _ _ => true
  | sectionNotTable _ _ => true
  | unreadable _ _ => true
  | _ => false

def message : LoadError → String
  | missing path => "Configuration file does not exist: " ++ path.text
  | notFile path => "Configuration path is not a file: " ++ path.text
  | unknownFormat suffix =>
    "Unsupported config file format: " ++ suffix ++ ". Use .json, .toml, or .yaml"
  | invalid format path detail =>
    "Invalid " ++ format.label ++ " in config file " ++ path.text ++
      (detail.map fun d => ": " ++ d).getD ""
  | notMapping path kind =>
    "Config file " ++ path.text ++ " must contain a mapping at root level, got " ++ kind
  | sectionNotTable path kind =>
    "[tool.panbridge] section in " ++ path.text ++ " must be a table, got " ++ kind
  | unreadable path error =>
    "Error reading config file " ++ path.text ++ ": " ++ error.messageAbout path.text
  | undecodable error => error.message
  | toolsNotTable => "the tools are no table"
  | yaml _ message => message
  | lookup error => error.message
  | endless => "maximum recursion depth exceeded"

end LoadError

-- How a reader of YAML can fail: the text is no YAML, or something else goes wrong with it, such
-- as a number that a tag promises and the text does not write.
inductive YamlError where
  | malformed (detail : Option String)
  | other (kind message : String)
deriving DecidableEq, Repr

-- The machine as configuration sees it: its files, two directories, and its reader of YAML, of
-- which nothing is known here.
structure Surroundings where
  files : FileTree
  cwd : Path
  home : Path
  yaml : String → Except YamlError Content

namespace Surroundings

variable (w : Surroundings)

def isFile (path : Path) : Except LoadError Bool :=
  (w.files.isFile w.cwd path).mapError .lookup

-- What a text in a format writes.
def decode (format : Format) (path : Path) (bytes : List UInt8) : Except LoadError Content :=
  match format with
  | .toml =>
    match Utf8.decode bytes with
    | .error e => .error (.undecodable e)
    | .ok text =>
      match Toml.read? text with
      | some table => .ok (.value (.obj table))
      | none => .error (.invalid .toml path none)
  | .json =>
    match textOfBytes bytes with
    | .error e => .error (.undecodable e)
    | .ok text =>
      match Json.read (Text.of text) with
      | .ok value => .ok (.value (.ofJson value))
      | .error e => .error (.invalid .json path (some e.message))
  | .yaml =>
    match textOfBytes bytes with
    | .error e => .error (.undecodable e)
    | .ok text => (w.yaml text).mapError fun e =>
        match e with
        | .malformed detail => .invalid .yaml path detail
        | .other kind message => .yaml kind message

-- Read a file by its suffix.
def parse (path : Path) : Except LoadError Content :=
  let suffix := Text.lower path.suffix
  match Format.ofSuffix? suffix with
  | none => .error (.unknownFormat suffix)
  | some format =>
    match w.files.readBytes w.cwd path with
    | .error (.os e) => .error (.unreadable path e)
    | .error e => .error (.lookup e)
    | .ok bytes => w.decode format path bytes

def projectFile : String := "pyproject.toml"
def toolKey : Key := "tool"
def sectionKey : Key := "panbridge"

-- The section of a project file that is ours; empty if there is none. A project file is TOML, so
-- no mapping in it holds itself.
def projectSection (path : Path) : Except LoadError (Entries Key Setting) := do
  let .value document ← w.parse path | throw .toolsNotTable
  match (document.member? toolKey).getD (.obj []) with
  | .obj tools =>
    match Entries.get? sectionKey tools with
    | none => return []
    | some .null => return []
    | some (.obj table) => return table
    | some found => throw (.sectionNotTable path found.kind)
  | _ => throw .toolsNotTable

-- Load the mapping that a configuration file writes.
def load (path : Path) : Except LoadError Mapping :=
  match w.files.stat w.cwd path with
  | .error e => .error (if e.isAbsent then .missing path else .lookup e)
  | .ok .directory => .error (.notFile path)
  | .ok (.file _) =>
    if Text.lower path.name = projectFile then (w.projectSection path).map .entries
    else
      match w.parse path with
      | .error e => .error e
      | .ok (.knot k) => .ok (.knot k)
      | .ok (.value (.obj entries)) => .ok (.entries entries)
      | .ok (.value found) => .error (.notMapping path found.kind)

end Surroundings

end Dialect.Config
