import Dialect.Config.Toml.Moment
import Dialect.Config.Toml.Scalar
import Dialect.Config.Toml.Table

-- TOML documents.

namespace Dialect.Toml

def isBareKeyChar (c : Char) : Bool :=
  Text.isDigit c || (97 ≤ c.toNat && c.toNat ≤ 122) || (65 ≤ c.toNat && c.toNat ≤ 90) ||
    c == '-' || c == '_'

-- A name of a key: bare, or a string of one line.
def keyPart? (s : List Char) : Option (Key × List Char) :=
  match s with
  | '"' :: rest =>
    (basicBody? (rest.length + 1) rest).map fun (cs, r) => (.text (Text.ofChars cs), r)
  | '\'' :: rest => (literalBody? rest).map fun (cs, r) => (.text (Text.ofChars cs), r)
  | _ =>
    match s.takeWhile isBareKeyChar with
    | [] => none
    | cs => some (.text (Text.ofChars cs), s.dropWhile isBareKeyChar)

-- Names with dots between them, and the blanks behind them. The fuel is the length.
def key? : Nat → List Char → Option (Path × List Char)
  | 0, _ => none
  | fuel + 1, s => do
    let (name, r) ← keyPart? s
    match skipSpace r with
    | '.' :: rest => do
      let (names, r) ← key? fuel (skipSpace rest)
      return (name :: names, r)
    | r => return ([name], r)

-- What follows a comment; nothing if a control stands in it.
def skipComment? (s : List Char) : Option (List Char) :=
  match s with
  | '#' :: rest =>
    if (rest.takeWhile (· != '\n')).any isControl then none
    else some (rest.dropWhile (· != '\n'))
  | _ => some s

-- Blanks, line ends and comments in an array.
def skipFiller? : Nat → List Char → Option (List Char)
  | 0, s => some s
  | fuel + 1, s =>
    let r := s.dropWhile isSpaceOrNewline
    match r with
    | '#' :: _ => (skipComment? r).bind (skipFiller? fuel)
    | _ => some r

def filler? (s : List Char) : Option (List Char) :=
  skipFiller? (s.length + 1) s

-- A value that holds no others.
def plain? (s : List Char) : Option (Setting × List Char) :=
  match string? s with
  | some (text, r) => some (.str text, r)
  | none =>
    match s with
    | '"' :: _ => none
    | '\'' :: _ => none
    | _ =>
      (word? booleans s).orElse fun _ =>
        match moment s with
        | .found thing r => some (.other thing, r)
        | .invalid => none
        | .none => (number? s).orElse fun _ => word? specialNumbers s

mutual

-- A value at the head of the text. The fuel bounds the nesting of calls; twice the length
-- of the text is enough.
def value? : Nat → List Char → Option (Setting × List Char)
  | 0, _ => none
  | fuel + 1, s =>
    match s with
    | '[' :: rest => do
      let r ← filler? rest
      match r with
      | ']' :: r => return (.arr [], r)
      | r =>
        let (items, r) ← items? fuel r
        return (.arr items, r)
    | '{' :: rest =>
      match skipSpace rest with
      | '}' :: r => some (.obj [], r)
      | r => do
        let (table, r) ← members? fuel ⟨[], []⟩ r
        return (.obj table, r)
    | _ => plain? s

-- The items of an array up to its end; at least one.
def items? : Nat → List Char → Option (List Setting × List Char)
  | 0, _ => none
  | fuel + 1, s => do
    let (item, r) ← value? fuel s
    match ← filler? r with
    | ']' :: r => return ([item], r)
    | ',' :: r => do
      match ← filler? r with
      | ']' :: r => return ([item], r)
      | r =>
        let (items, r) ← items? fuel r
        return (item :: items, r)
    | _ => none

-- The members of an inline table up to its end; at least one.
def members? : Nat → InlineDraft → List Char → Option (Entries Key Setting × List Char)
  | 0, _, _ => none
  | fuel + 1, draft, s => do
    let (key, r) ← key? (s.length + 1) s
    let '=' :: r := r | none
    let (value, r) ← value? fuel (skipSpace r)
    let draft ← draft.assign key value
    match skipSpace r with
    | '}' :: r => return (draft.table, r)
    | ',' :: r => members? fuel draft (skipSpace r)
    | _ => none

end

-- What a line says.
inductive Statement where
  | nothing
  | table (key : Path)
  | item (key : Path)
  | assign (key : Path) (value : Setting)

-- The statement at the head of a line, without the blanks in front of it.
def statement? (s : List Char) : Option (Statement × List Char) :=
  match s with
  | [] => some (.nothing, [])
  | '\n' :: _ => some (.nothing, s)
  | '#' :: _ => some (.nothing, s)
  | '[' :: '[' :: rest => do
    let (key, r) ← key? (s.length + 1) (skipSpace rest)
    match r with
    | ']' :: ']' :: r => return (.item key, r)
    | _ => none
  | '[' :: rest => do
    let (key, r) ← key? (s.length + 1) (skipSpace rest)
    match r with
    | ']' :: r => return (.table key, r)
    | _ => none
  | _ => do
    let (key, r) ← key? (s.length + 1) s
    match r with
    | '=' :: r => do
      let (value, r) ← value? (2 * s.length + 2) (skipSpace r)
      return (.assign key value, r)
    | _ => none

def Statement.apply (d : Draft) : Statement → Option Draft
  | nothing => some d
  | table key => d.openTable key
  | item key => d.openItem key
  | assign key value => d.assign key value

-- Read line after line. The fuel is the length of the text.
def lines? : Nat → Draft → List Char → Option Draft
  | 0, d, _ => some d
  | fuel + 1, d, s => do
    let (statement, r) ← statement? (skipSpace s)
    let d ← statement.apply d
    match ← skipComment? (skipSpace r) with
    | [] => return d
    | '\n' :: rest => lines? fuel d rest
    | _ => none

-- A carriage return in front of a line feed is part of the line end.
def unifyNewlines : List Char → List Char
  | [] => []
  | '\r' :: '\n' :: rest => '\n' :: unifyNewlines rest
  | c :: rest => c :: unifyNewlines rest

-- The table that a document writes; nothing if it is not TOML.
def read? (text : String) : Option (Entries Key Setting) :=
  let s := unifyNewlines text.toList
  (lines? (s.length + 1) Draft.empty s).map Draft.table

end Dialect.Toml
