import Dialect.Text.Blank
import Dialect.Host.Width

-- Text in lines of a given width, broken between words.

namespace Dialect.Host

open Text (isBlank trimRight)

-- Lines are at most this wide; a word that is wider goes on in the next line or is cut.
structure Page where
  width : Nat
  fold : Bool
deriving DecidableEq, Repr

-- Cut a text at its line feeds.
def splitLines : List Char → List (List Char)
  | [] => [[]]
  | c :: rest =>
    match splitLines rest with
    | [] => [[c]]
    | line :: lines => if c = '\n' then [] :: line :: lines else (c :: line) :: lines

-- A tab goes on to the next multiple of eight columns.
def expandTabs (column : Nat) : List Char → List Char
  | [] => []
  | c :: rest =>
    if c = '\t' then
      let next := (column / 8 + 1) * 8
      List.replicate (next - column) ' ' ++ expandTabs next rest
    else c :: expandTabs (column + charWidth c) rest

-- The first word with the blanks around it, and what follows.
def nextWord (s : List Char) : List Char × List Char :=
  let (lead, s) := s.span isBlank
  let (word, s) := s.span fun c => !isBlank c
  let (trail, s) := s.span isBlank
  (lead ++ word ++ trail, s)

-- The words of a text with the blanks around them; none without a word. The fuel is the
-- length of the text.
def wordsFrom : Nat → List Char → List (List Char)
  | 0, _ => []
  | fuel + 1, s =>
    if s.all isBlank then [] else (nextWord s).1 :: wordsFrom fuel (nextWord s).2

def words (s : List Char) : List (List Char) :=
  wordsFrom s.length s

-- Cut a word into pieces of a width; `piece` is the one at work, turned round.
def chop (limit : Nat) (piece : List Char) (used : Nat) : List Char → List (List Char)
  | [] => [piece.reverse]
  | c :: rest =>
    if used + charWidth c > limit then piece.reverse :: chop limit [c] (charWidth c) rest
    else chop limit (c :: piece) (used + charWidth c) rest

-- A line at work, and its width.
structure Filling where
  line : List Char
  used : Nat

-- Put words into lines. Blanks behind a word do not count for whether it fits.
def fill (page : Page) (f : Filling) : List (List Char) → List (List Char)
  | [] => [f.line]
  | word :: rest =>
    let needed := width (trimRight word)
    if f.used + needed ≤ page.width then
      fill page ⟨f.line ++ word, f.used + width word⟩ rest
    else
      let pieces := if page.fold && page.width < needed then chop page.width [] 0 word else [word]
      let last := pieces.getLast?.getD []
      let full := (if f.line.isEmpty then [] else [f.line]) ++ pieces.dropLast
      full ++ fill page ⟨last, width last⟩ rest

-- Drop blanks at the end, as far as they reach beyond the width.
def dropOverhang (limit : Nat) (line : List Char) : List Char :=
  let blanks := (line.reverse.takeWhile isBlank).length
  line.take (line.length - min blanks (line.length - limit))

-- The front of a line that fits into a width.
def takeWidth (limit : Nat) : List Char → List Char
  | [] => []
  | c :: rest =>
    if charWidth c ≤ limit then c :: takeWidth (limit - charWidth c) rest else []

def padTo (limit : Nat) (line : List Char) : List Char :=
  line ++ List.replicate (limit - width line) ' '

-- A line that is still too wide is cut, with an ellipsis if words are not folded.
def cutTo (page : Page) (line : List Char) : List Char :=
  if width line ≤ page.width then line
  else if page.fold then padTo page.width (takeWidth page.width line)
  else padTo (page.width - 1) (takeWidth (page.width - 1) line) ++ ['…']

-- One line of text as lines of the page.
def wrapLine (page : Page) (line : List Char) : List (List Char) :=
  let line := expandTabs 0 line
  let lines := match words line with
    | [] => [line]
    | ws => fill page ⟨[], 0⟩ ws
  lines.map fun l => cutTo page (dropOverhang page.width l)

def wrap (page : Page) (s : List Char) : List (List Char) :=
  (splitLines s).flatMap (wrapLine page)

end Dialect.Host
