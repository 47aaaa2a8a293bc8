import Dialect.Json.Basic
import Dialect.Number.Shortest
import Dialect.Text.Digit

-- The text of a JSON value, on one line or with indentation, in Unicode or in ASCII.

namespace Dialect.Json

structure Layout where
  indent : Option Nat
  ascii : Bool
deriving DecidableEq, Repr

-- One line, in Unicode.
def Layout.line : Layout := ⟨none, false⟩

-- The escape of a unit of sixteen bits.
def unitEscape (n : Nat) : List Char :=
  '\\' :: 'u' :: Text.hexDigits 4 n

-- What is written for one character of a string. In ASCII everything outside the range
-- from blank to tilde is an escape, with a surrogate pair above the sixteen bit range.
def charText (ascii : Bool) (c : Char) : List Char :=
  let n := c.toNat
  if c = '"' then ['\\', '"']
  else if c = '\\' then ['\\', '\\']
  else if c = '\n' then ['\\', 'n']
  else if c = '\r' then ['\\', 'r']
  else if c = '\t' then ['\\', 't']
  else if n = 8 then ['\\', 'b']
  else if n = 12 then ['\\', 'f']
  else if n < 32 then unitEscape n
  else if ascii && 126 < n then
    if n < 0x10000 then unitEscape n
    else unitEscape (0xD800 + (n - 0x10000) / 1024) ++ unitEscape (0xDC00 + (n - 0x10000) % 1024)
  else [c]

-- A half on its own is an escape in ASCII, and else it stays as it is.
def codeText (ascii : Bool) : Code → Text
  | .char c => .ofChars (charText ascii c)
  | .half d => if ascii then .ofChars (unitEscape (0xD800 + d)) else [.half d]

def stringText (ascii : Bool) (s : Text) : Text :=
  .char '"' :: (s.flatMap (codeText ascii) ++ [.char '"'])

-- The numbers of JSON text, with words for what no JSON grammar has.
def numberStyle : Shortest.Style := ⟨-4, 15, "Infinity", "NaN"⟩

-- A new line at a depth, if the layout has lines.
def lineBreak (layout : Layout) (depth : Nat) : Text :=
  match layout.indent with
  | none => []
  | some n => .char '\n' :: List.replicate (n * depth) (.char ' ')

-- What stands between two neighbours.
def separator (layout : Layout) (depth : Nat) : Text :=
  match layout.indent with
  | none => [.char ',', .char ' ']
  | some _ => .char ',' :: lineBreak layout depth

mutual

-- The text of a value that stands at a depth.
def written (layout : Layout) (depth : Nat) : Json → Text
  | null => "null"
  | bool true => "true"
  | bool false => "false"
  | int i => toString i
  | double d => Shortest.text numberStyle d
  | str s => stringText layout.ascii s
  | arr [] => "[]"
  | arr (a :: rest) =>
    .char '[' :: (lineBreak layout (depth + 1) ++ written layout (depth + 1) a ++
      writtenItems layout (depth + 1) rest ++ lineBreak layout depth ++ [.char ']'])
  | obj [] => "\x7b\x7d"
  | obj ((k, a) :: rest) =>
    .char '{' :: (lineBreak layout (depth + 1) ++ stringText layout.ascii k ++
      [.char ':', .char ' '] ++ written layout (depth + 1) a ++
      writtenMembers layout (depth + 1) rest ++ lineBreak layout depth ++ [.char '}'])

def writtenItems (layout : Layout) (depth : Nat) : List Json → Text
  | [] => []
  | a :: rest => separator layout depth ++ written layout depth a ++ writtenItems layout depth rest

def writtenMembers (layout : Layout) (depth : Nat) : List (Text × Json) → Text
  | [] => []
  | (k, a) :: rest => separator layout depth ++ stringText layout.ascii k ++
      [.char ':', .char ' '] ++ written layout depth a ++ writtenMembers layout depth rest

end

def render (layout : Layout) (value : Json) : Text :=
  written layout 0 value

def text (value : Json) : Text :=
  render Layout.line value

end Dialect.Json
