import Dialect.Cli.Drawing
import Dialect.Host.Markup
import Dialect.Host.Wrap

-- Drawings as pictures in characters, without colours: what the library that draws makes of them
-- on a screen that is no terminal.

namespace Dialect.Host

-- The columns of the screen.
def screenWidth : Nat := 80

def centred (limit : Nat) (fill : Char) (s : List Char) : List Char :=
  let space := limit - width s
  List.replicate (space / 2) fill ++ s ++ List.replicate (space - space / 2) fill

def unlines (lines : List (List Char)) : String :=
  String.ofList (lines.flatMap fun l => l ++ ['\n'])

-- Controls that move the cursor back or make a noise are left out.
def isSilent (c : Char) : Bool :=
  let n := c.toNat
  n == 7 || n == 8 || n == 11 || n == 12 || n == 13

-- A frame over the whole screen with a title in its upper side.
def panel (title : String) (content : List Char) : List (List Char) :=
  let inner := screenWidth - 4
  let lines := wrap ⟨inner, true⟩ (content.filter fun c => !isSilent c)
  let top := ['╭', '─'] ++ centred inner '─' (' ' :: title.toList ++ [' ']) ++ ['─', '╮']
  let bottom := ['╰'] ++ List.replicate (inner + 2) '─' ++ ['╯']
  [top] ++ (lines.map fun l => ['│', ' '] ++ padTo inner l ++ [' ', '│']) ++ [bottom]

-- Two columns under a title.
structure Table where
  title : String
  heads : String × String
  rows : List (String × String)
deriving Repr

namespace Table

-- The width of the widest cell.
def natural (head : String) (cells : List String) : Nat :=
  ((head :: cells).map fun s => width s.toList).foldl max 0

-- The widths of both columns. The first one gives way if the screen is too small for both.
def widths (t : Table) : Nat × Nat :=
  let second := natural t.heads.2 (t.rows.map Prod.snd)
  let first := natural t.heads.1 (t.rows.map Prod.fst)
  (min first (screenWidth - 7 - second), second)

-- A row takes as many lines as its higher cell.
def rowLines (left middle right : Char) (w : Nat × Nat) (row : String × String) :
    List (List Char) :=
  let first := wrap ⟨w.1, false⟩ row.1.toList
  let second := wrap ⟨w.2, false⟩ row.2.toList
  (List.range (max first.length second.length)).map fun i =>
    [left, ' '] ++ padTo w.1 (first[i]?.getD []) ++ [' ', middle, ' '] ++
      padTo w.2 (second[i]?.getD []) ++ [' ', right]

def rule (left line middle right : Char) (w : Nat × Nat) : List Char :=
  [left] ++ List.replicate (w.1 + 2) line ++ [middle] ++ List.replicate (w.2 + 2) line ++ [right]

def lines (t : Table) : List (List Char) :=
  let w := t.widths
  [centred (w.1 + w.2 + 7) ' ' t.title.toList, rule '┏' '━' '┳' '┓' w] ++
    rowLines '┃' '┃' '┃' w t.heads ++ [rule '┡' '━' '╇' '┩' w] ++
    t.rows.flatMap (rowLines '│' '│' '│' w) ++ [rule '└' '─' '┴' '┘' w]

end Table

-- The text of a cell or a panel without its tags; none if they do not fit together.
def untagged? (text : String) : Option String :=
  (Markup.plain? text.toList).map String.ofList

-- The cells of a row with two columns.
def row? : List String → Option (String × String)
  | [first, second] => do return (← untagged? first, ← untagged? second)
  | _ => none

-- No tables are drawn but those with two columns.
def picture? : Cli.Drawing → Option String
  | .panel title content =>
    (untagged? content).map fun content => unlines (panel title content.toList)
  | .table title [(first, _), (second, _)] rows =>
    (rows.mapM row?).map fun rows => unlines (Table.lines ⟨title, (first, second), rows⟩)
  | _ => none

end Dialect.Host
