import Dialect.Host.Yaml.Cursor
import Dialect.Host.Yaml.Error
import Dialect.Text.Code

-- The five spellings of a YAML scalar: single and double quotes, literal and folded
-- blocks, and plain words. Line ends inside a scalar are folded.

namespace Dialect.Host.Yaml

-- The escapes of one letter in double quotes.
def letterEscape? (c : Char) : Option Char :=
  match c with
  | '0' => some (Char.ofNat 0)
  | 'a' => some (Char.ofNat 7)
  | 'b' => some (Char.ofNat 8)
  | 't' => some '\t'
  | '\t' => some '\t'
  | 'n' => some '\n'
  | 'v' => some (Char.ofNat 11)
  | 'f' => some (Char.ofNat 12)
  | 'r' => some '\r'
  | 'e' => some (Char.ofNat 27)
  | ' ' => some ' '
  | '"' => some '"'
  | '\\' => some '\\'
  | '/' => some '/'
  | 'N' => some (Char.ofNat 0x85)
  | '_' => some (Char.ofNat 0xA0)
  | 'L' => some (Char.ofNat 0x2028)
  | 'P' => some (Char.ofNat 0x2029)
  | _ => none

-- How many hexadecimal digits follow a letter that escapes by code.
def codeWidth? : Char → Option Nat
  | 'x' => some 2
  | 'u' => some 4
  | 'U' => some 8
  | _ => none

def codeEscape (width : Nat) (c : Cursor) : Except Error (Code × Cursor) :=
  let ds := c.rest.take width
  match (if ds.length = width then ds.mapM Text.hexValue? else none) with
  | none => .error .malformed
  | some vs =>
    let n := vs.foldl (fun n v => n * 16 + v) 0
    if 0x10FFFF < n then .error .noCharacter else .ok (Code.ofNat n, c.advance width)

-- Line ends, each with the blanks and tabs around it. A mark between documents may not
-- stand at the start of a line.
def quotedBreaks : Nat → Cursor → Except Error (List Char × Cursor)
  | 0, c => .ok ([], c)
  | fuel + 1, c =>
    if c.atDocumentMark then .error .malformed
    else
      let c := c.skip fun ch => ch == ' ' || ch == '\t'
      match c.lineBreak? with
      | some (b, c) => do
        let (bs, c) ← quotedBreaks fuel c
        return (b :: bs, c)
      | none => .ok ([], c)

-- A line end and the ones behind it, folded: one alone is a blank, of several the first is
-- dropped.
def foldBreaks (first : Char) (more : List Char) : List Char :=
  if first ≠ '\n' then first :: more
  else if more.isEmpty then [' ']
  else more

-- The text of a quoted scalar up to its closing quote.
def quotedBody (double : Bool) : Nat → Cursor → Except Error (Text × Cursor)
  | 0, _ => .error .malformed
  | fuel + 1, c =>
    let ch := c.peek
    let goOn (cs : Text) (c : Cursor) : Except Error (Text × Cursor) := do
      let (more, c) ← quotedBody double fuel c
      return (cs ++ more, c)
    if ch == ending then .error .malformed
    else if ch == ' ' || ch == '\t' || isBreak ch then
      let (blanks, c) := c.span fun ch => ch == ' ' || ch == '\t'
      match c.lineBreak? with
      | some (b, c) => do
        let (bs, c) ← quotedBreaks (c.rest.length + 1) c
        goOn (Text.ofChars (foldBreaks b bs)) c
      | none => goOn (Text.ofChars blanks) c
    else if ch == (if double then '"' else '\'') then
      if !double && c.peekAt 1 == '\'' then goOn [.char '\''] (c.advance 2) else .ok ([], c.next)
    else if double && ch == '\\' then
      let c := c.next
      match letterEscape? c.peek, codeWidth? c.peek, c.lineBreak? with
      | some e, _, _ => goOn [.char e] c.next
      | _, some width, _ => do
        let (e, c) ← codeEscape width c.next
        goOn [e] c
      | _, _, some (_, c) => do
        let (bs, c) ← quotedBreaks (c.rest.length + 1) c
        goOn (Text.ofChars bs) c
      | _, _, _ => .error .malformed
    else goOn [.char ch] c.next

-- How the line ends behind a block are kept.
inductive Chomping where
  | strip
  | clip
  | keep
deriving DecidableEq

def chomping? : Char → Option Chomping
  | '+' => some .keep
  | '-' => some .strip
  | _ => none

def indentDigit? (c : Char) : Option Nat :=
  if Text.isDigit c then some (c.toNat - 48) else none

-- The indicators behind | or >: how to chomp, and how far the block is indented, in any
-- order.
def blockIndicators (c : Cursor) : Except Error (Chomping × Option Nat × Cursor) := do
  let (chomp, indent, c) : Option Chomping × Option Nat × Cursor :=
    match chomping? c.peek, indentDigit? c.peek with
    | some chomp, _ =>
      let c := c.next
      match indentDigit? c.peek with
      | some n => (some chomp, some n, c.next)
      | none => (some chomp, none, c)
    | none, some n =>
      let c := c.next
      match chomping? c.peek with
      | some chomp => (some chomp, some n, c.next)
      | none => (none, some n, c)
    | none, none => (none, none, c)
  if indent = some 0 then throw .malformed
  if !(c.peek == ' ' || isBreakOrEnd c.peek) then throw .malformed
  return (chomp.getD .clip, indent, c)

-- What is left of a line that holds nothing more: blanks, a comment, and the line end.
def finishLine (c : Cursor) : Except Error Cursor :=
  let c := c.skipBlanks
  let c := if c.peek == '#' then c.skip fun ch => !isBreakOrEnd ch else c
  if isBreakOrEnd c.peek then .ok ((c.lineBreak?.map Prod.snd).getD c)
  else .error .malformed

-- The empty lines in front of a block whose indentation is not given: the line ends, and
-- the widest column.
def blockLead : Nat → Nat → Cursor → List Char × Nat × Cursor
  | 0, width, c => ([], width, c)
  | fuel + 1, width, c =>
    match c.lineBreak? with
    | some (b, c) =>
      let (bs, width, c) := blockLead fuel width c
      (b :: bs, width, c)
    | none =>
      if c.peek == ' ' then blockLead fuel (max width c.next.column) c.next
      else ([], width, c)

def skipIndent (indent : Nat) : Nat → Cursor → Cursor
  | 0, c => c
  | fuel + 1, c =>
    if c.column < indent && c.peek == ' ' then skipIndent indent fuel c.next else c

-- The empty lines in a block, and its indentation behind them.
def blockBreaks (indent : Nat) : Nat → Cursor → List Char × Cursor
  | 0, c => ([], c)
  | fuel + 1, c =>
    let c := skipIndent indent indent c
    match c.lineBreak? with
    | some (b, c) =>
      let (bs, c) := blockBreaks indent fuel c
      (b :: bs, c)
    | none => ([], c)

-- The lines of a block. Answers the text, the last line end, and the empty lines behind it.
def blockLines (folded : Bool) (indent : Nat) :
    Nat → List Char → Cursor → List Char × List Char × List Char × Cursor
  | 0, breaks, c => ([], [], breaks, c)
  | fuel + 1, breaks, c =>
    let flush := !(c.peek == ' ' || c.peek == '\t')
    let (line, c) := c.span fun ch => !isBreakOrEnd ch
    let (lineEnd, c) : List Char × Cursor := match c.lineBreak? with
      | some (b, c) => ([b], c)
      | none => ([], c)
    let (next, c) := blockBreaks indent (c.rest.length + 1) c
    if c.column = indent ∧ c.peek ≠ ending then
      let joint :=
        if folded && lineEnd == ['\n'] && flush && !(c.peek == ' ' || c.peek == '\t') then
          if next.isEmpty then [' '] else []
        else lineEnd
      let (more, lastEnd, trailing, c) := blockLines folded indent fuel next c
      (breaks ++ line ++ joint ++ more, lastEnd, trailing, c)
    else (breaks ++ line, lineEnd, next, c)

-- A block scalar behind its | or >, inside a collection that is indented by `parent`.
def blockScalar (folded : Bool) (parent : Int) (c : Cursor) : Except Error (String × Cursor) := do
  let (chomp, given, c) ← blockIndicators c
  let c ← finishLine c
  let least := (max 1 (parent + 1)).toNat
  let (breaks, indent, c) := match given with
    | some n =>
      let indent := least + n - 1
      let (breaks, c) := blockBreaks indent (c.rest.length + 1) c
      (breaks, indent, c)
    | none =>
      let (breaks, width, c) := blockLead (c.rest.length + 1) 0 c
      (breaks, max least width, c)
  let (text, lastEnd, trailing, c) :=
    if c.column = indent ∧ c.peek ≠ ending then
      blockLines folded indent (c.rest.length + 1) breaks c
    else ([], [], breaks, c)
  let tail := match chomp with
    | .strip => []
    | .clip => lastEnd
    | .keep => lastEnd ++ trailing
  return (String.ofList (text ++ tail), c)

-- Where a plain word ends: at a gap, at a colon with a gap behind it, and in a flow
-- collection at its punctuation.
def endsPlain (flow : Bool) (ch next : Char) : Bool :=
  isGap ch ||
    (ch == ':' && (isGap next || (flow && [',', '[', ']', '\x7b', '\x7d'].contains next))) ||
    (flow && [',', '?', '[', ']', '\x7b', '\x7d'].contains ch)

-- The length of the word at the head of a text.
def plainLength (flow : Bool) : List Char → Nat
  | [] => 0
  | ch :: rest =>
    if ch == ending || endsPlain flow ch (rest.headD ending) then 0
    else plainLength flow rest + 1

-- Blanks and line ends between the lines of a plain scalar; nothing at a mark between
-- documents.
def plainBreaks? : Nat → Cursor → Option (List Char) × Cursor
  | 0, c => (some [], c)
  | fuel + 1, c =>
    match c.lineBreak? with
    | some (b, c) =>
      if c.atDocumentMark then (none, c)
      else
        let (bs, c) := plainBreaks? fuel c
        (bs.map (b :: ·), c)
    | none => if c.peek == ' ' then plainBreaks? fuel c.next else (some [], c)

-- What stands between two words of a plain scalar, and whether a line ended there. Nothing
-- if no word can follow.
def plainSpace (c : Cursor) : List Char × Bool × Cursor :=
  let (blanks, c) := c.span (· == ' ')
  match c.lineBreak? with
  | none => (blanks, false, c)
  | some (b, c) =>
    if c.atDocumentMark then ([], true, c)
    else
      match plainBreaks? (c.rest.length + 1) c with
      | (some bs, c) => (foldBreaks b bs, true, c)
      | (none, c) => ([], true, c)

-- A plain scalar, inside a collection that is indented by `parent`. Answers also whether a
-- line ended behind its last word.
def plainWords (flow : Bool) (parent : Int) :
    Nat → List Char → Bool → Cursor → List Char × Bool × Cursor
  | 0, _, ended, c => ([], ended, c)
  | fuel + 1, space, ended, c =>
    let n := if c.peek == '#' then 0 else plainLength flow c.rest
    if n = 0 then ([], ended, c)
    else
      let word := c.rest.take n
      let (between, ended, c) := plainSpace (c.advance n)
      if between.isEmpty || c.peek == '#' || (!flow && (c.column : Int) < parent + 1) then
        (space ++ word, ended, c)
      else
        let (more, ended', c) := plainWords flow parent fuel between ended c
        (space ++ word ++ more, ended', c)

end Dialect.Host.Yaml
