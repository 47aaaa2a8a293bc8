import Dialect.Config.Setting
import Dialect.Number.Spelling
import Dialect.Text.Digit

-- The single values of TOML: strings in four spellings, numbers, dates and times. A reader
-- takes the head of a text and answers what is left, or nothing if the text is not TOML.

namespace Dialect.Toml

def isSpace (c : Char) : Bool :=
  c == ' ' || c == '\t'

def isSpaceOrNewline (c : Char) : Bool :=
  isSpace c || c == '\n'

-- Controls other than the tab stand nowhere, the line feed only between lines and in
-- strings of many lines.
def isControl (c : Char) : Bool :=
  (c.toNat < 32 && c != '\t') || c.toNat == 127

def skipSpace (s : List Char) : List Char :=
  s.dropWhile isSpace

def hexNumber? (ds : List Char) : Option Nat :=
  ds.foldlM (fun n d => (Text.hexValue? d).map fun v => n * 16 + v) 0

-- A character from its code in `width` hexadecimal digits.
def codeEscape? (width : Nat) (s : List Char) : Option (Char × List Char) := do
  let ds := s.take width
  if ds.length < width then none
  else
    let n ← hexNumber? ds
    if n.isValidChar then some (Char.ofNat n, s.drop width) else none

-- The escapes of one letter.
def letterEscape? : Char → Option Char
  | 'b' => some (Char.ofNat 8)
  | 't' => some '\t'
  | 'n' => some '\n'
  | 'f' => some (Char.ofNat 12)
  | 'r' => some '\r'
  | '"' => some '"'
  | '\\' => some '\\'
  | _ => none

-- What stands behind a backslash, in a string of one line.
def escape? : List Char → Option (Char × List Char)
  | 'u' :: rest => codeEscape? 4 rest
  | 'U' :: rest => codeEscape? 8 rest
  | c :: rest => (letterEscape? c).map fun e => (e, rest)
  | [] => none

-- A backslash at the end of a line joins it with the next line that is not blank. Answers
-- where the text goes on, or nothing if the backslash does not end its line.
def joinLines? (s : List Char) : Option (List Char) :=
  match s with
  | '\n' :: rest => some (rest.dropWhile isSpaceOrNewline)
  | c :: _ =>
    if isSpace c then
      match skipSpace s with
      | [] => some []
      | '\n' :: rest => some (rest.dropWhile isSpaceOrNewline)
      | _ => none
    else none
  | [] => none

-- The characters of a basic string up to its closing quote. The fuel is the length.
def basicBody? : Nat → List Char → Option (List Char × List Char)
  | 0, _ => none
  | _ + 1, [] => none
  | fuel + 1, c :: rest =>
    if c = '"' then some ([], rest)
    else if c = '\\' then do
      let (e, r) ← escape? rest
      let (cs, r) ← basicBody? fuel r
      return (e :: cs, r)
    else if isControl c then none
    else do
      let (cs, r) ← basicBody? fuel rest
      return (c :: cs, r)

-- One or two quotes in front of the closing three belong to the string.
def extraQuotes (quote : Char) (s : List Char) : List Char × List Char :=
  match s with
  | a :: b :: rest =>
    if a = quote then if b = quote then ([a, b], rest) else ([a], b :: rest) else ([], s)
  | [a] => if a = quote then ([a], []) else ([], s)
  | [] => ([], [])

-- The characters of a basic string of many lines up to its closing quotes.
def basicLines? : Nat → List Char → Option (List Char × List Char)
  | 0, _ => none
  | _ + 1, [] => none
  | fuel + 1, c :: rest =>
    match c, rest with
    | '"', '"' :: '"' :: r => some (extraQuotes '"' r)
    | '\\', _ =>
      match joinLines? rest with
      | some r => basicLines? fuel r
      | none => do
        let (e, r) ← escape? rest
        let (cs, r) ← basicLines? fuel r
        return (e :: cs, r)
    | _, _ =>
      if isControl c && c != '\n' then none
      else do
        let (cs, r) ← basicLines? fuel rest
        return (c :: cs, r)

-- The characters of a literal string up to its closing quote.
def literalBody? : List Char → Option (List Char × List Char)
  | [] => none
  | c :: rest =>
    if c = '\'' then some ([], rest)
    else if isControl c then none
    else (literalBody? rest).map fun (cs, r) => (c :: cs, r)

-- The characters of a literal string of many lines up to its closing quotes.
def literalLines? : List Char → Option (List Char × List Char)
  | '\'' :: '\'' :: '\'' :: rest => some (extraQuotes '\'' rest)
  | [] => none
  | c :: rest =>
    if isControl c && c != '\n' then none
    else (literalLines? rest).map fun (cs, r) => (c :: cs, r)

-- A line feed right behind the opening quotes is not part of the string.
def dropNewline (s : List Char) : List Char :=
  match s with
  | '\n' :: rest => rest
  | _ => s

def string? (s : List Char) : Option (String × List Char) :=
  let found := match s with
    | '"' :: '"' :: '"' :: rest => basicLines? (rest.length + 1) (dropNewline rest)
    | '"' :: rest => basicBody? (rest.length + 1) rest
    | '\'' :: '\'' :: '\'' :: rest => literalLines? (dropNewline rest)
    | '\'' :: rest => literalBody? rest
    | _ => none
  found.map fun (cs, r) => (String.ofList cs, r)

-- Digits of one kind with single underscores between them: the digits, and what follows.
def digitRun (isDigit : Char → Bool) : List Char → List Char × List Char
  | '_' :: d :: rest =>
    if isDigit d then
      let (ds, r) := digitRun isDigit rest
      (d :: ds, r)
    else ([], '_' :: d :: rest)
  | c :: rest =>
    if isDigit c then
      let (ds, r) := digitRun isDigit rest
      (c :: ds, r)
    else ([], c :: rest)
  | [] => ([], [])

-- A run that starts with a digit.
def digits (isDigit : Char → Bool) (s : List Char) : List Char × List Char :=
  match s with
  | c :: _ => if isDigit c then digitRun isDigit s else ([], s)
  | [] => ([], [])

-- A whole number in another base than ten.
def based? (base : Nat) (isDigit : Char → Bool) (s : List Char) : Option (Setting × List Char) :=
  match digits isDigit s with
  | ([], _) => none
  | (ds, rest) =>
    some (.int (ds.foldl (fun n d => n * base + (Text.hexValue? d).getD 0) 0 : Nat), rest)

def sign (s : List Char) : Bool × List Char :=
  match s with
  | '-' :: rest => (true, rest)
  | '+' :: rest => (false, rest)
  | _ => (false, s)

-- The digits behind a point; none without a digit there.
def fraction (s : List Char) : List Char × List Char :=
  match s with
  | '.' :: rest =>
    match digits Text.isDigit rest with
    | ([], _) => ([], s)
    | found => found
  | _ => ([], s)

def exponent? (s : List Char) : Option (Int × List Char) :=
  match s with
  | c :: rest =>
    if c = 'e' ∨ c = 'E' then
      let (negative, more) := sign rest
      match digits Text.isDigit more with
      | ([], _) => none
      | (ds, r) =>
        let n : Int := Text.decimal ds
        some (if negative then -n else n, r)
    else none
  | [] => none

-- A decimal number: whole, or a double if it has a fraction or an exponent.
def decimal? (s : List Char) : Option (Setting × List Char) :=
  let (negative, unsigned) := sign s
  let (whole, afterWhole) := match unsigned with
    | '0' :: rest => (['0'], rest)
    | _ => digits Text.isDigit unsigned
  if whole.isEmpty then none
  else
    let (frac, afterFraction) := fraction afterWhole
    match frac, exponent? afterFraction with
    | [], none =>
      let n : Int := Text.decimal whole
      some (.int (if negative then -n else n), afterFraction)
    | _, power =>
      let (x, rest) := power.getD (0, afterFraction)
      some (.double (Double.ofDecimal negative (Text.decimal (whole ++ frac)) (x - frac.length)),
        rest)

def isOctal (c : Char) : Bool := 48 ≤ c.toNat && c.toNat ≤ 55
def isBinary (c : Char) : Bool := c == '0' || c == '1'
def isHex (c : Char) : Bool := (Text.hexValue? c).isSome

def number? (s : List Char) : Option (Setting × List Char) :=
  let other := match s with
    | '0' :: 'x' :: rest => based? 16 isHex rest
    | '0' :: 'o' :: rest => based? 8 isOctal rest
    | '0' :: 'b' :: rest => based? 2 isBinary rest
    | _ => none
  other.orElse fun _ => decimal? s

-- The text behind a word, if it starts with it.
def behind? : List Char → List Char → Option (List Char)
  | [], s => some s
  | _ :: _, [] => none
  | w :: ws, c :: cs => if w = c then behind? ws cs else none

def word? (words : List (String × Setting)) (s : List Char) : Option (Setting × List Char) :=
  words.findSome? fun (w, v) => (behind? w.toList s).map fun rest => (v, rest)

def booleans : List (String × Setting) :=
  [("true", .bool true), ("false", .bool false)]

def specialNumbers : List (String × Setting) :=
  [("inf", .double (.infinite false)), ("+inf", .double (.infinite false)),
    ("-inf", .double (.infinite true)), ("nan", .double .nan), ("+nan", .double .nan),
    ("-nan", .double .nan)]

end Dialect.Toml
