-- A place in a YAML text: what is left, and the line and column reached. The end of the
-- text shows as a character of its own, U+0000, which no YAML text holds.

namespace Dialect.Host.Yaml

structure Cursor where
  rest : List Char
  index : Nat
  line : Nat
  column : Nat

def ending : Char := Char.ofNat 0

-- Characters that end a line.
def isBreak (c : Char) : Bool :=
  c == '\n' || c == '\r' || c.toNat == 0x85 || c.toNat == 0x2028 || c.toNat == 0x2029

def isBreakOrEnd (c : Char) : Bool :=
  isBreak c || c == ending

-- What may follow a word that stands alone on its line so far.
def isGap (c : Char) : Bool :=
  isBreakOrEnd c || c == ' ' || c == '\t'

namespace Cursor

def start (text : List Char) : Cursor := ⟨text, 0, 0, 0⟩

def peek (c : Cursor) : Char :=
  c.rest.headD ending

def peekAt (c : Cursor) (n : Nat) : Char :=
  (c.rest.drop n).headD ending

-- One character further. A carriage return with its line feed counts as one line end, and
-- a byte order mark takes no column.
def next (c : Cursor) : Cursor :=
  match c.rest with
  | [] => c
  | ch :: rest =>
    if isBreak ch && !(ch == '\r' && rest.head? == some '\n') then
      ⟨rest, c.index + 1, c.line + 1, 0⟩
    else if ch.toNat = 0xFEFF then ⟨rest, c.index + 1, c.line, c.column⟩
    else ⟨rest, c.index + 1, c.line, c.column + 1⟩

def advance (c : Cursor) : Nat → Cursor
  | 0 => c
  | n + 1 => c.next.advance n

-- The characters up to the first one that fails the test, and the place behind them.
def span (c : Cursor) (p : Char → Bool) : List Char × Cursor :=
  let taken := c.rest.takeWhile p
  (taken, c.advance taken.length)

def skip (c : Cursor) (p : Char → Bool) : Cursor :=
  (c.span p).2

def skipBlanks (c : Cursor) : Cursor :=
  c.skip (· == ' ')

-- A line end as the text sees it, and the place behind it; nothing where there is none.
def lineBreak? (c : Cursor) : Option (Char × Cursor) :=
  let ch := c.peek
  if ch = '\r' ∧ c.peekAt 1 = '\n' then some ('\n', c.advance 2)
  else if ch = '\r' ∨ ch = '\n' ∨ ch.toNat = 0x85 then some ('\n', c.next)
  else if ch.toNat = 0x2028 ∨ ch.toNat = 0x2029 then some (ch, c.next)
  else none

-- Three dashes or three dots that stand alone: where a document begins or ends.
def atMarker (c : Cursor) (mark : Char) : Bool :=
  c.peek == mark && c.peekAt 1 == mark && c.peekAt 2 == mark && isGap (c.peekAt 3)

def atDocumentMark (c : Cursor) : Bool :=
  c.atMarker '-' || c.atMarker '.'

end Cursor

end Dialect.Host.Yaml
