import Dialect.Json.Basic
import Dialect.Text.Digit

-- Reading JSON text. A fault is found at a place, which is carried as the text that is
-- left there; what was read before it follows from the length of the whole.

namespace Dialect.Json

inductive Flaw where
  | value
  | name
  | colon
  | comma
  | unterminated
  | controlCharacter
  | backslash
  | unicodeEscape
  | extraData
  | byteOrderMark
deriving DecidableEq, Repr

def Flaw.message : Flaw → String
  | value => "Expecting value"
  | name => "Expecting property name enclosed in double quotes"
  | colon => "Expecting ':' delimiter"
  | comma => "Expecting ',' delimiter"
  | unterminated => "Unterminated string starting at"
  | controlCharacter => "Invalid control character at"
  | backslash => "Invalid \\escape"
  | unicodeEscape => "Invalid \\uXXXX escape"
  | extraData => "Extra data"
  | byteOrderMark => "Unexpected UTF-8 BOM (decode using utf-8-sig)"

-- A flaw and the text from there on.
structure Fault where
  flaw : Flaw
  rest : Text
deriving DecidableEq, Repr

-- Blanks between the tokens of JSON.
def isSpace : Code → Bool
  | .char c => c == ' ' || c == '\t' || c == '\n' || c == '\r'
  | .half _ => false

def skipSpace (s : Text) : Text :=
  s.dropWhile isSpace

def hexValue? : Code → Option Nat
  | .char c => Text.hexValue? c
  | .half _ => none

def unit? (a b c d : Code) : Option Nat := do
  let a ← hexValue? a
  let b ← hexValue? b
  let c ← hexValue? c
  let d ← hexValue? d
  return ((a * 16 + b) * 16 + c) * 16 + d

def isHighSurrogate (n : Nat) : Bool := 0xD800 ≤ n && n < 0xDC00
def isLowSurrogate (n : Nat) : Bool := 0xDC00 ≤ n && n < 0xE000

def pairChar (high low : Nat) : Char :=
  Char.ofNat (0x10000 + (high - 0xD800) * 1024 + (low - 0xDC00))

-- The characters behind a backslash that stand for one character.
def shortEscape? : Code → Option Char
  | .char '"' => some '"'
  | .char '\\' => some '\\'
  | .char '/' => some '/'
  | .char 'b' => some (Char.ofNat 8)
  | .char 'f' => some (Char.ofNat 12)
  | .char 'n' => some '\n'
  | .char 'r' => some '\r'
  | .char 't' => some '\t'
  | _ => none

-- The unit that \u and four digits write. Something has to follow the digits.
def unitEscape? : Text → Option (Nat × Text)
  | a :: b :: c :: d :: next :: rest => (unit? a b c d).map fun n => (n, next :: rest)
  | _ => none

-- The code that the text behind a backslash stands for. Two escapes make one character if they
-- are the halves of a surrogate pair; a half on its own stays one.
def escape (opening : Text) (s : Text) : Except Fault (Code × Text) :=
  match s with
  | [] => .error ⟨.unterminated, opening⟩
  | .char 'u' :: digits =>
    match unitEscape? digits with
    | none => .error ⟨.unicodeEscape, s⟩
    | some (first, rest) =>
      match isHighSurrogate first, rest with
      | true, .char '\\' :: .char 'u' :: more =>
        match unitEscape? more with
        | some (second, tail) =>
          if isLowSurrogate second then .ok (pairChar first second, tail)
          else .ok (Code.ofNat first, rest)
        | none =>
          if more.length ≤ 4 then .ok (Code.ofNat first, rest)
          else .error ⟨.unicodeEscape, .char 'u' :: more⟩
      | _, _ => .ok (Code.ofNat first, rest)
  | c :: rest =>
    match shortEscape? c with
    | some e => .ok (e, rest)
    | none => .error ⟨.backslash, .char '\\' :: s⟩

-- A string up to its closing quote. The string was opened at the start of `opening`. The fuel is
-- the length of the text.
def stringBody (opening : Text) : Nat → Text → Except Fault (Text × Text)
  | _, [] => .error ⟨.unterminated, opening⟩
  | 0, _ :: _ => .error ⟨.unterminated, opening⟩
  | fuel + 1, c :: rest =>
    if c = '"' then .ok ([], rest)
    else if c = '\\' then do
      let (e, r) ← escape opening rest
      let (cs, r) ← stringBody opening fuel r
      return (e :: cs, r)
    else if c.toNat < 32 then .error ⟨.controlCharacter, c :: rest⟩
    else do
      let (cs, r) ← stringBody opening fuel rest
      return (c :: cs, r)

-- A string that opens with the first character of `s`.
def stringAt (s : Text) : Except Fault (Text × Text) :=
  stringBody s s.length (s.drop 1)

-- The digits that a text begins with, and what is behind them.
def digits : Text → List Char × Text
  | .char c :: rest =>
    if Text.isDigit c then (c :: (digits rest).1, (digits rest).2) else ([], .char c :: rest)
  | s => ([], s)

-- The digits behind a point, if there are any.
def fraction (s : Text) : List Char × Text :=
  match s with
  | .char '.' :: rest =>
    match digits rest with
    | ([], _) => ([], s)
    | found => found
  | _ => ([], s)

-- The exponent behind e or E, if there is one.
def exponent? (s : Text) : Option (Int × Text) :=
  match s with
  | [] => none
  | c :: rest =>
    if c = 'e' ∨ c = 'E' then
      let (negative, unsigned) : Bool × Text := match rest with
        | .char '-' :: more => (true, more)
        | .char '+' :: more => (false, more)
        | _ => (false, rest)
      match digits unsigned with
      | ([], _) => none
      | (ds, rest) =>
        let n : Int := Text.decimal ds
        some (if negative then -n else n, rest)
    else none

-- The whole part of a number. One that starts with zero is zero.
def whole (s : Text) : List Char × Text :=
  match s with
  | .char '0' :: rest => (['0'], rest)
  | _ => digits s

-- A number without its sign.
def number? (negative : Bool) (s : Text) : Option (Json × Text) :=
  let (whole, afterWhole) := whole s
  if whole.isEmpty then none
  else
    let (frac, afterFraction) := fraction afterWhole
    match frac, exponent? afterFraction with
    | [], none =>
      let n : Int := Text.decimal whole
      some (int (if negative then -n else n), afterFraction)
    | _, none =>
      some (double (Double.ofDecimal negative (Text.decimal (whole ++ frac)) (-frac.length)),
        afterFraction)
    | _, some (x, rest) =>
      some (double (Double.ofDecimal negative (Text.decimal (whole ++ frac)) (x - frac.length)),
        rest)

-- The text behind a word, if it starts with it.
def after? : Text → Text → Option Text
  | [], s => some s
  | _ :: _, [] => none
  | w :: ws, c :: cs => if w = c then after? ws cs else none

-- Values that are words.
def words : List (Text × Json) :=
  [("null", null), ("true", bool true), ("false", bool false), ("NaN", double .nan),
    ("Infinity", double (.infinite false)), ("-Infinity", double (.infinite true))]

-- A value that is neither a string nor a container.
def atom (s : Text) : Except Fault (Json × Text) :=
  match words.findSome? fun (w, v) => (after? w s).map fun rest => (v, rest) with
  | some found => .ok found
  | none =>
    let found := match s with
      | .char '-' :: rest => number? true rest
      | _ => number? false s
    match found with
    | some read => .ok read
    | none => .error ⟨.value, s⟩

mutual

-- A value at the head of the text. The fuel bounds the nesting of calls; twice the length
-- of the text is enough, because every second call takes a character.
def readValue : Nat → Text → Except Fault (Json × Text)
  | 0, s => .error ⟨.value, s⟩
  | fuel + 1, s =>
    match s with
    | .char '"' :: _ => do
      let (text, r) ← stringAt s
      return (str text, r)
    | .char '[' :: rest =>
      match skipSpace rest with
      | .char ']' :: r => .ok (arr [], r)
      | first => do
        let (items, r) ← readItems fuel first
        return (arr items, r)
    | .char '{' :: rest =>
      match skipSpace rest with
      | .char '}' :: r => .ok (obj [], r)
      | first => do
        let (members, r) ← readMembers fuel first
        return (obj (Entries.ofPairs members), r)
    | _ => atom s

-- The items of an array up to its end; at least one.
def readItems : Nat → Text → Except Fault (List Json × Text)
  | 0, s => .error ⟨.value, s⟩
  | fuel + 1, s => do
    let (item, r) ← readValue fuel s
    match skipSpace r with
    | .char ']' :: rest => return ([item], rest)
    | .char ',' :: rest => do
      let (items, r) ← readItems fuel (skipSpace rest)
      return (item :: items, r)
    | rest => .error ⟨.comma, rest⟩

-- The members of an object up to its end; at least one.
def readMembers : Nat → Text → Except Fault (List (Text × Json) × Text)
  | 0, s => .error ⟨.value, s⟩
  | fuel + 1, s =>
    match s with
    | .char '"' :: _ => do
      let (name, r) ← stringAt s
      match skipSpace r with
      | .char ':' :: rest => do
        let (value, r) ← readValue fuel (skipSpace rest)
        match skipSpace r with
        | .char '}' :: rest => return ([(name, value)], rest)
        | .char ',' :: rest => do
          let (members, r) ← readMembers fuel (skipSpace rest)
          return ((name, value) :: members, r)
        | rest => .error ⟨.comma, rest⟩
      | rest => .error ⟨.colon, rest⟩
    | _ => .error ⟨.name, s⟩

end

-- One value with blanks around it.
def readWhole (s : Text) : Except Fault Json := do
  let (value, r) ← readValue (2 * s.length + 2) (skipSpace s)
  match skipSpace r with
  | [] => return value
  | rest => .error ⟨.extraData, rest⟩

-- A flaw and where it is: the offset counts characters from zero, line and column from one.
structure SyntaxError where
  flaw : Flaw
  line : Nat
  column : Nat
  offset : Nat
deriving DecidableEq, Repr

def SyntaxError.message (e : SyntaxError) : String :=
  e.flaw.message ++ ": line " ++ toString e.line ++ " column " ++ toString e.column ++
    " (char " ++ toString e.offset ++ ")"

-- Where in a text a fault is.
def Fault.locate (whole : Text) (fault : Fault) : SyntaxError :=
  let offset := whole.length - fault.rest.length
  let before := whole.take offset
  { flaw := fault.flaw
    line := 1 + before.count (.char '\n')
    column := 1 + (before.reverse.takeWhile fun c => c != .char '\n').length
    offset }

-- Read a decoded text.
def readCodes (s : Text) : Except SyntaxError Json :=
  (readWhole s).mapError (Fault.locate s)

-- Read a text. A byte order mark in front of it is refused.
def read (s : Text) : Except SyntaxError Json :=
  match s with
  | c :: _ =>
    if c.toNat = 0xFEFF then .error (Fault.locate s ⟨.byteOrderMark, s⟩) else readCodes s
  | [] => readCodes s

end Dialect.Json
