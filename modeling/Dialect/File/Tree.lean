import Dialect.File.Path
import Dialect.Text.Blank
import Dialect.Text.Quoted
import Dialect.Text.Utf8

-- The files of a machine as a value: every directory and every file by its place under the
-- root.

namespace Dialect

-- An error of the operating system: its number and its words.
structure OsError where
  number : Int
  text : String
deriving DecidableEq, Repr

namespace OsError

def missing : OsError := ⟨2, "No such file or directory"⟩
def notDirectory : OsError := ⟨20, "Not a directory"⟩
def isDirectory : OsError := ⟨21, "Is a directory"⟩
def nameTooLong : OsError := ⟨36, "File name too long"⟩

-- Nothing is there: a part is missing, or a part on the way is no directory.
def isAbsent (e : OsError) : Bool :=
  e.number = 2 || e.number = 20

def message (e : OsError) : String :=
  "[Errno " ++ toString e.number ++ "] " ++ e.text

-- The message with the name of the file.
def messageAbout (e : OsError) (file : String) : String :=
  e.message ++ ": " ++ Text.quoted file

end OsError

-- What can be wrong with a path: what the system says of it, or that it is none that the system
-- could be asked for.
inductive PathError where
  | os (error : OsError)
  | nulByte
deriving DecidableEq, Repr

namespace PathError

-- There is nothing at the path, as far as one asks for that alone.
def isAbsent : PathError → Bool
  | os error => error.isAbsent
  | nulByte => true

def message : PathError → String
  | os error => error.message
  | nulByte => "embedded null byte"

end PathError

inductive FileNode where
  | directory
  | file (bytes : List UInt8)
deriving DecidableEq, Repr

abbrev Location := List String

structure FileTree where
  nodes : List (Location × FileNode)
deriving Repr

namespace FileTree

-- The root is always a directory.
def node? (t : FileTree) (l : Location) : Option FileNode :=
  if l = [] then some .directory else (t.nodes.find? fun n => n.1 = l).map Prod.snd

def put (t : FileTree) (l : Location) (n : FileNode) : FileTree :=
  if (t.node? l).isSome then ⟨t.nodes.map fun m => if m.1 = l then (l, n) else m⟩
  else ⟨t.nodes ++ [(l, n)]⟩

-- Make the directories that lead to a place, as far as they are missing.
def ensure (t : FileTree) (l : Location) : FileTree :=
  (List.range (l.length + 1)).foldl
    (fun t n => if (t.node? (l.take n)).isSome then t else t.put (l.take n) .directory) t

def addDirectory (t : FileTree) (l : Location) : FileTree :=
  t.ensure l

def addFile (t : FileTree) (l : Location) (bytes : List UInt8) : FileTree :=
  (t.ensure l.dropLast).put l (.file bytes)

-- A part of a path may have 255 bytes.
def isTooLong (part : String) : Bool :=
  255 < part.utf8ByteSize

-- Follow the parts of a path from a place; every place on the way has to be a directory.
def follow (t : FileTree) (l : Location) : List String → Except OsError Location
  | [] => .ok l
  | p :: rest =>
    match t.node? l with
    | none => .error .missing
    | some (.file _) => .error .notDirectory
    | some .directory =>
      if isTooLong p then .error .nameTooLong
      else follow t (if p = ".." then l.dropLast else l ++ [p]) rest

-- Where the parts of a path lead, seen from a directory.
def locate (t : FileTree) (cwd : Path) (p : Path) : Except OsError Location :=
  if p.isAbsolute then follow t [] p.parts
  else do
    let l ← follow t [] cwd.parts
    follow t l p.parts

-- A path may have 4095 bytes, whatever its parts.
def pathLimit : Nat := 4096

def isLong (p : Path) : Bool :=
  pathLimit ≤ p.text.utf8ByteSize

-- Where a path leads that the system is asked for.
def find (t : FileTree) (cwd : Path) (p : Path) : Except PathError Location :=
  if p.hasNul then .error .nulByte
  else if isLong p then .error (.os .nameTooLong)
  else (t.locate cwd p).mapError .os

-- What is at a path.
def stat (t : FileTree) (cwd : Path) (p : Path) : Except PathError FileNode := do
  let l ← t.find cwd p
  match t.node? l with
  | some n => return n
  | none => throw (.os .missing)

-- Whether a file is at a path. Only that nothing is there says no, other errors stay.
def isFile (t : FileTree) (cwd : Path) (p : Path) : Except PathError Bool :=
  match t.stat cwd p with
  | .ok (.file _) => .ok true
  | .ok .directory => .ok false
  | .error e => if e.isAbsent then .ok false else .error e

def readBytes (t : FileTree) (cwd : Path) (p : Path) : Except PathError (List UInt8) := do
  match ← t.stat cwd p with
  | .file bytes => return bytes
  | .directory => throw (.os .isDirectory)

-- Open a file to write at its end; it is made if it is not there. Answers its place.
def openToAppend (t : FileTree) (cwd : Path) (p : Path) :
    Except PathError (Location × FileTree) := do
  let l ← t.find cwd p
  match t.node? l with
  | some .directory => throw (.os .isDirectory)
  | some (.file _) => return (l, t)
  | none =>
    match t.node? l.dropLast with
    | some .directory => return (l, t.put l (.file []))
    | some (.file _) => throw (.os .notDirectory)
    | none => throw (.os .missing)

-- Write at the end of a file that is open.
def append (t : FileTree) (l : Location) (text : String) : FileTree :=
  match t.node? l with
  | some (.file bytes) => t.put l (.file (bytes ++ Utf8.encode text))
  | _ => t

end FileTree

-- Bytes as a text file: UTF-8, with one kind of line end.
def textOfBytes (bytes : List UInt8) : Except Utf8.DecodeError String :=
  (Utf8.decodeChars bytes).map fun cs => String.ofList (Text.unifyNewlines cs)

end Dialect
