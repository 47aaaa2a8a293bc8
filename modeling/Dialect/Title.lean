import Dialect.Text.Blank

-- The title line of a metadata block. A block is read as plain text: the title is on
-- the first line after the opening one that starts with the key, and all else in the
-- block stays as it is when the title is replaced.

namespace Dialect.Title

def key : List Char := "\ntitle:".toList

-- A block around its title line: what stands before the line feed in front of the key,
-- the text between the key and the next line feed, and what follows that line feed.
structure Place where
  before : List Char
  value : List Char
  after : List Char
deriving DecidableEq, Repr

-- A line that is closed by a line feed, and what follows it.
def closedLine? : List Char → Option (List Char × List Char)
  | [] => none
  | c :: rest => if c = '\n' then some ([], rest)
      else (closedLine? rest).map fun (line, after) => (c :: line, after)

-- The text behind a lead, if the text starts with it.
def behind? : List Char → List Char → Option (List Char)
  | [], s => some s
  | _ :: _, [] => none
  | k :: ks, c :: cs => if k = c then behind? ks cs else none

-- The leftmost title line.
def find? : List Char → Option Place
  | [] => none
  | c :: rest =>
    match (behind? key (c :: rest)).bind closedLine? with
    | some (value, after) => some ⟨[], value, after⟩
    | none => (find? rest).map fun p => { p with before := c :: p.before }

def isQuote (c : Char) : Bool :=
  c == '"' || c == '\''

-- Take off one quote at the front and one at the back, each on its own account.
def unquote (s : List Char) : List Char :=
  let s := match s with
    | c :: rest => if isQuote c then rest else s
    | [] => []
  match s.getLast? with
  | some c => if isQuote c then s.dropLast else s
  | none => s

-- Undo the escapes of a double quoted text.
def dropBackslashes : List Char → List Char
  | [] => []
  | '\\' :: '"' :: rest => '"' :: dropBackslashes rest
  | c :: rest => c :: dropBackslashes rest

-- Undo the escapes of a single quoted text.
def halveQuotes : List Char → List Char
  | [] => []
  | '\'' :: '\'' :: rest => '\'' :: halveQuotes rest
  | c :: rest => c :: halveQuotes rest

-- The title that the text of a title line stands for.
def ofLine (value : List Char) : List Char :=
  halveQuotes (dropBackslashes (unquote (Text.trimChars value)))

-- The title of a block; empty if the block has none.
def extract (block : String) : String :=
  match find? block.toList with
  | some place => String.ofList (ofLine place.value)
  | none => ""

-- The title of the first block that has a title line.
def ofBlocks : List String → String
  | [] => ""
  | block :: rest => if (find? block.toList).isSome then extract block else ofBlocks rest

def escapeQuotes : List Char → List Char
  | [] => []
  | c :: rest => if c = '"' then '\\' :: '"' :: escapeQuotes rest else c :: escapeQuotes rest

-- A title line with its line feeds.
def line (title : List Char) : List Char :=
  key ++ " \"".toList ++ escapeQuotes title ++ "\"\n".toList

-- The block with another title; nothing if the block has no title line.
def replace? (block title : String) : Option String :=
  (find? block.toList).map fun place =>
    String.ofList (place.before ++ line title.toList ++ place.after)

-- A block that holds a title and nothing else.
def block (title : String) : String :=
  String.ofList ("---".toList ++ line title.toList ++ "---".toList)

-- One replacement after the other; a block without a title line stays as it is. Answers
-- each result, with the title then in the block.
def edits (block : String) : List String → List (Option String × String)
  | [] => []
  | title :: rest =>
    let result := replace? block title
    let now := result.getD block
    (result, extract now) :: edits now rest

end Dialect.Title
