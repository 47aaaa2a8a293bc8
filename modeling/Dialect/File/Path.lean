-- Names of files: a root or none, and the parts behind it.

namespace Dialect

structure Path where
  root : String
  parts : List String
deriving DecidableEq, Repr

namespace Path

-- Cut a text at every separator.
def pieces : List Char → List (List Char)
  | [] => [[]]
  | c :: rest =>
    match pieces rest with
    | [] => [[c]]
    | p :: ps => if c = '/' then [] :: p :: ps else (c :: p) :: ps

-- Two slashes in front are a root of their own, any other number counts as one.
def rootOf (s : List Char) : String :=
  match (s.takeWhile (· == '/')).length with
  | 0 => ""
  | 2 => "//"
  | _ => "/"

-- A path as it is written; empty parts and single dots say nothing.
def ofText (text : String) : Path :=
  let s := text.toList
  let parts := (pieces s).filter fun p => p != [] && p != ['.']
  ⟨rootOf s, parts.map String.ofList⟩

def text (p : Path) : String :=
  if p.root = "" ∧ p.parts = [] then "."
  else p.root ++ "/".intercalate p.parts

def isAbsolute (p : Path) : Bool := p.root != ""

-- The character that ends names for the system is in the path.
def hasNul (p : Path) : Bool :=
  p.parts.any fun part => part.toList.contains (Char.ofNat 0)

def child (p : Path) (name : String) : Path :=
  { p with parts := p.parts ++ [name] }

-- The last part; empty without one.
def name (p : Path) : String :=
  p.parts.getLast?.getD ""

-- The extension of a name with its point. A point that begins or ends the name starts none.
def suffixOf (name : List Char) : List Char :=
  let tail := (name.reverse.takeWhile (· != '.')).reverse
  let stem := name.length - tail.length
  if tail.isEmpty || stem ≤ 1 then [] else '.' :: tail

def suffix (p : Path) : String :=
  String.ofList (suffixOf p.name.toList)

-- A list of parts with every .. carried out; at the top it stays there.
def settleParts (done : List String) : List String → List String
  | [] => done
  | p :: rest => settleParts (if p = ".." then done.dropLast else done ++ [p]) rest

-- The path from the root, seen from a directory, without looking at any file. There is one root
-- only, however it is written.
def settle (directory : Path) (p : Path) : Path :=
  ⟨"/", settleParts (if p.isAbsolute then [] else settleParts [] directory.parts) p.parts⟩

-- The same, with the root as it is written.
def absolute (directory : Path) (p : Path) : Path :=
  { settle directory p with root := if p.isAbsolute then p.root else directory.root }

-- A directory and those around it, from the inside out.
def upwards (p : Path) : List Path :=
  (List.range (p.parts.length + 1)).map fun n =>
    { p with parts := p.parts.take (p.parts.length - n) }

end Path

end Dialect
