import Dialect.Host.Yaml.Scalar

-- The lexemes of a YAML text. Indentation opens and closes block collections, and a key on
-- one line is only known as a key when its colon comes, so its lexemes are put in front of
-- the place where it began.

namespace Dialect.Host.Yaml

inductive Lexeme where
  | version (major : Nat)
  | tagPrefix (handle expansion : String)
  | otherDirective
  | documentStart
  | documentEnd
  | blockSequence
  | blockMapping
  | blockEnd
  | flowSequence
  | flowSequenceEnd
  | flowMapping
  | flowMappingEnd
  | flowEntry
  | blockEntry
  | key
  | value
  | alias (name : String)
  | anchor (name : String)
  | tag (handle : Option String) (suffix : String)
  | scalar (text : Text) (plain : Bool)
deriving DecidableEq, Repr

-- A place where a key may have begun: the number of lexemes before it, and whether a colon
-- has to come.
structure Candidate where
  place : Nat
  required : Bool
  index : Nat
  line : Nat
  column : Nat

-- A text while it is cut into lexemes, the latest of them first. Block collections are
-- indented by `indent`, those around them by `outer`. There is at most one candidate for
-- each depth of flow collections, the innermost first.
structure Scan where
  cursor : Cursor
  lexemes : List Lexeme
  indent : Int
  outer : List Int
  flow : List (Option Candidate)
  candidate : Option Candidate
  keyAllowed : Bool

namespace Scan

def start (text : List Char) : Scan :=
  ⟨Cursor.start text, [], -1, [], [], none, true⟩

def inFlow (s : Scan) : Bool := !s.flow.isEmpty

def emit (s : Scan) (l : Lexeme) : Scan :=
  { s with lexemes := l :: s.lexemes }

-- Put a lexeme in front of all that came after the first `place` ones.
def insert (s : Scan) (place : Nat) (l : Lexeme) : Scan :=
  let after := s.lexemes.length - place
  { s with lexemes := s.lexemes.take after ++ l :: s.lexemes.drop after }

def column (s : Scan) : Int := s.cursor.column

-- A candidate is over when its line is or when it is too long ago.
def isStale (s : Scan) (k : Candidate) : Bool :=
  k.line != s.cursor.line || s.cursor.index - k.index > 1024

def dropStale (s : Scan) : Except Error Scan := do
  let fresh (k : Option Candidate) : Except Error (Option Candidate) :=
    match k with
    | some k =>
      if s.isStale k then if k.required then .error .malformed else .ok none else .ok (some k)
    | none => .ok none
  let candidate ← fresh s.candidate
  let flow ← s.flow.mapM fresh
  return { s with candidate, flow }

-- A key may begin here.
def saveCandidate (s : Scan) : Except Error Scan :=
  let required := !s.inFlow && s.indent == s.column
  if s.keyAllowed then
    if (s.candidate.map Candidate.required).getD false then .error .malformed
    else
      let c := s.cursor
      .ok { s with candidate := some ⟨s.lexemes.length, required, c.index, c.line, c.column⟩ }
  else .ok s

def dropCandidate (s : Scan) : Except Error Scan :=
  if (s.candidate.map Candidate.required).getD false then .error .malformed
  else .ok { s with candidate := none }

-- Close the block collections that are indented further than a column.
def unwind (column : Int) : Nat → Scan → Scan
  | 0, s => s
  | fuel + 1, s =>
    if column < s.indent then
      unwind column fuel
        { s with
          indent := s.outer.headD (-1)
          outer := s.outer.tail
          lexemes := .blockEnd :: s.lexemes }
    else s

def unwindTo (s : Scan) (column : Int) : Scan :=
  if s.inFlow then s else unwind column (s.outer.length + 1) s

-- Whether a column opens a block collection; if so it is the indentation from now on.
def indentTo (s : Scan) (column : Int) : Bool × Scan :=
  if s.indent < column then (true, { s with indent := column, outer := s.indent :: s.outer })
  else (false, s)

-- Skip blanks, comments and line ends. A key may begin on a new line of a block.
def skipFiller : Nat → Scan → Scan
  | 0, s => s
  | fuel + 1, s =>
    let c := s.cursor.skipBlanks
    let c := if c.peek == '#' then c.skip fun ch => !isBreakOrEnd ch else c
    match c.lineBreak? with
    | some (_, c) => skipFiller fuel { s with cursor := c, keyAllowed := s.keyAllowed || !s.inFlow }
    | none => { s with cursor := c }

def isWordChar (c : Char) : Bool :=
  Text.isDigit c || (97 ≤ c.toNat && c.toNat ≤ 122) || (65 ≤ c.toNat && c.toNat ≤ 90) ||
    c == '-' || c == '_'

def isUriChar (c : Char) : Bool :=
  isWordChar c || [';', '/', '?', ':', '@', '&', '=', '+', '$', ',', '.', '!', '~', '*', '\'',
    '(', ')', '[', ']', '%'].contains c

def word (c : Cursor) : Except Error (String × Cursor) :=
  match c.span isWordChar with
  | ([], _) => .error .malformed
  | (cs, c) => .ok (String.ofList cs, c)

-- A tag handle: an exclamation mark, or a word between two.
def tagHandle (c : Cursor) : Except Error (String × Cursor) :=
  if c.peek ≠ '!' then .error .malformed
  else
    let c := c.next
    if c.peek == ' ' then .ok ("!", c)
    else
      let (cs, c) := c.span isWordChar
      if c.peek == '!' then .ok (String.ofList ('!' :: cs ++ ['!']), c.next)
      else .error .malformed

def tagUri (c : Cursor) : Except Error (String × Cursor) :=
  match c.span isUriChar with
  | ([], _) => .error .malformed
  | (cs, c) => .ok (String.ofList cs, c)

def directiveNumber (c : Cursor) : Except Error (Nat × Cursor) :=
  match c.span Text.isDigit with
  | ([], _) => .error .malformed
  | (ds, c) => .ok (Text.decimal ds, c)

def directiveBody (name : String) (c : Cursor) : Except Error (Lexeme × Cursor) := do
  if name = "YAML" then
    let (major, c) ← directiveNumber c.skipBlanks
    if c.peek ≠ '.' then throw .malformed
    let (_, c) ← directiveNumber c.next
    if !(c.peek == ' ' || isBreakOrEnd c.peek) then throw .malformed
    return (.version major, c)
  else if name = "TAG" then
    let (handle, c) ← tagHandle c.skipBlanks
    if c.peek ≠ ' ' then throw .malformed
    let (expansion, c) ← tagUri c.skipBlanks
    if !(c.peek == ' ' || isBreakOrEnd c.peek) then throw .malformed
    return (.tagPrefix handle expansion, c)
  else return (.otherDirective, c.skip fun ch => !isBreakOrEnd ch)

def directive (s : Scan) : Except Error Scan := do
  let s ← (s.unwindTo (-1)).dropCandidate
  let (name, c) ← word s.cursor.next
  if !(c.peek == ' ' || isBreakOrEnd c.peek) then throw .malformed
  let (lexeme, c) ← directiveBody name c
  let c ← finishLine c
  return { s.emit lexeme with cursor := c, keyAllowed := false }

def documentMark (s : Scan) (l : Lexeme) : Except Error Scan := do
  let s ← (s.unwindTo (-1)).dropCandidate
  return { s.emit l with cursor := s.cursor.advance 3, keyAllowed := false }

def openFlow (s : Scan) (l : Lexeme) : Except Error Scan := do
  let s ← s.saveCandidate
  return { s.emit l with
    cursor := s.cursor.next, keyAllowed := true, flow := s.candidate :: s.flow, candidate := none }

-- A closing bracket without an opening one is an error here already.
def closeFlow (s : Scan) (l : Lexeme) : Except Error Scan := do
  let s ← s.dropCandidate
  match s.flow with
  | [] => throw .malformed
  | candidate :: flow =>
    return { s.emit l with cursor := s.cursor.next, keyAllowed := false, flow, candidate }

def flowEntry (s : Scan) : Except Error Scan := do
  let s ← s.dropCandidate
  return { s.emit .flowEntry with cursor := s.cursor.next, keyAllowed := true }

-- Open a block collection at a column if it is not open yet.
def openBlock (s : Scan) (l : Lexeme) : Except Error Scan :=
  if s.inFlow then .ok s
  else if !s.keyAllowed then .error .malformed
  else
    let (opened, s) := s.indentTo s.column
    .ok (if opened then s.emit l else s)

def blockEntry (s : Scan) : Except Error Scan := do
  let s ← (← s.openBlock .blockSequence).dropCandidate
  return { s.emit .blockEntry with cursor := s.cursor.next, keyAllowed := true }

def explicitKey (s : Scan) : Except Error Scan := do
  let s ← (← s.openBlock .blockMapping).dropCandidate
  return { s.emit .key with cursor := s.cursor.next, keyAllowed := !s.inFlow }

def value (s : Scan) : Except Error Scan := do
  match s.candidate with
  | some k =>
    let s := { s with candidate := none }.insert k.place .key
    let s := if s.inFlow then s
      else
        let (opened, s) := s.indentTo k.column
        if opened then s.insert k.place .blockMapping else s
    return { s.emit .value with cursor := s.cursor.next, keyAllowed := false }
  | none =>
    let s ← s.openBlock .blockMapping
    return { s.emit .value with cursor := s.cursor.next, keyAllowed := !s.inFlow }

-- An anchor or an alias.
def reference (s : Scan) (make : String → Lexeme) : Except Error Scan := do
  let s ← s.saveCandidate
  let (name, c) ← word s.cursor.next
  if !(isGap c.peek || ['?', ':', ',', ']', '\x7d', '%', '@', '\x60'].contains c.peek) then
    throw .malformed
  return { s.emit (make name) with cursor := c, keyAllowed := false }

-- Whether an exclamation mark stands in the word at the head of a text.
def hasHandle (s : List Char) : Bool :=
  (s.takeWhile fun ch => !(ch == ' ' || isBreakOrEnd ch)).contains '!'

def tag (s : Scan) : Except Error Scan := do
  let s ← s.saveCandidate
  let c := s.cursor
  let (lexeme, c) ←
    if c.peekAt 1 == '<' then do
      let (suffix, c) ← tagUri (c.advance 2)
      if c.peek ≠ '>' then throw .malformed
      pure (Lexeme.tag none suffix, c.next)
    else if isGap (c.peekAt 1) then pure (Lexeme.tag none "!", c.next)
    else do
      let (handle, c) ← if hasHandle c.next.rest then tagHandle c else pure ("!", c.next)
      let (suffix, c) ← tagUri c
      pure (Lexeme.tag (some handle) suffix, c)
  if !(c.peek == ' ' || isBreakOrEnd c.peek) then throw .malformed
  return { s.emit lexeme with cursor := c, keyAllowed := false }

def block (s : Scan) (folded : Bool) : Except Error Scan := do
  let s ← s.dropCandidate
  let (text, c) ← blockScalar folded s.indent s.cursor.next
  return { s.emit (.scalar (Text.of text) false) with cursor := c, keyAllowed := true }

def quotedScalar (s : Scan) (double : Bool) : Except Error Scan := do
  let s ← s.saveCandidate
  let c := s.cursor.next
  let (cs, c) ← quotedBody double (c.rest.length + 1) c
  return { s.emit (.scalar cs false) with cursor := c, keyAllowed := false }

def plainScalar (s : Scan) : Except Error Scan := do
  let s ← s.saveCandidate
  let c := s.cursor
  let (cs, ended, c) := plainWords s.inFlow s.indent (c.rest.length + 1) [] false c
  return { s.emit (.scalar (Text.ofChars cs) true) with cursor := c, keyAllowed := ended }

-- A plain scalar may begin with any character that means nothing else here.
def startsPlain (s : Scan) : Bool :=
  let ch := s.cursor.peek
  let special := ['-', '?', ':', ',', '[', ']', '\x7b', '\x7d', '#', '&', '*', '!', '|', '>',
    '\'', '"', '%', '@', '\x60']
  if isGap ch then false
  else if !special.contains ch then true
  else !isGap (s.cursor.peekAt 1) && (ch == '-' || (!s.inFlow && (ch == '?' || ch == ':')))

-- The next lexeme of a text that is not at its end.
def step (s : Scan) : Except Error Scan :=
  let ch := s.cursor.peek
  let lineStart := s.cursor.column == 0
  let gapNext := isGap (s.cursor.peekAt 1)
  if lineStart && ch == '%' then s.directive
  else if lineStart && s.cursor.atMarker '-' then s.documentMark .documentStart
  else if lineStart && s.cursor.atMarker '.' then s.documentMark .documentEnd
  else if ch == '[' then s.openFlow .flowSequence
  else if ch == '\x7b' then s.openFlow .flowMapping
  else if ch == ']' then s.closeFlow .flowSequenceEnd
  else if ch == '\x7d' then s.closeFlow .flowMappingEnd
  else if ch == ',' then s.flowEntry
  else if ch == '-' && gapNext then s.blockEntry
  else if ch == '?' && (s.inFlow || gapNext) then s.explicitKey
  else if ch == ':' && (s.inFlow || gapNext) then s.value
  else if ch == '*' then s.reference .alias
  else if ch == '&' then s.reference .anchor
  else if ch == '!' then s.tag
  else if ch == '|' && !s.inFlow then s.block false
  else if ch == '>' && !s.inFlow then s.block true
  else if ch == '\'' then s.quotedScalar false
  else if ch == '"' then s.quotedScalar true
  else if s.startsPlain then s.plainScalar
  else .error .malformed

-- All lexemes up to the end or to the first fault. The fuel is the length of the text.
def run : Nat → Scan → Scan × Option Error
  | 0, s => (s, none)
  | fuel + 1, s =>
    let s := skipFiller (s.cursor.rest.length + 1) s
    match s.dropStale with
    | .error e => (s, some e)
    | .ok s =>
      let s := s.unwindTo s.column
      if s.cursor.peek == ending then
        let s := s.unwindTo (-1)
        match s.dropCandidate with
        | .ok s => (s, none)
        | .error e => (s, some e)
      else
        match s.step with
        | .error e => (s, some e)
        | .ok s => run fuel s

end Scan

-- The lexemes of a text, and the fault that ends them, if there is one. A byte order mark
-- may stand in front.
def lexemes (text : List Char) : List Lexeme × Option Error :=
  let s := Scan.start text
  let s := match text with
    | c :: _ => if c.toNat = 0xFEFF then { s with cursor := s.cursor.next } else s
    | [] => s
  let (s, fault) := Scan.run (text.length + 1) s
  (s.lexemes.reverse, fault)

end Dialect.Host.Yaml
