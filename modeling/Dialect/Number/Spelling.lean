import Dialect.Number.Double
import Dialect.Text.Digit
import Dialect.Text.Blank

-- Doubles as people spell them in settings and on the command line: blanks around the
-- number, digits of any script, underscores between digits, and words for infinity and for
-- what is not a number.

namespace Dialect.Spelling

-- Blanks that may stand around a number. The four separators U+001C to U+001F may not.
def isMargin (c : Char) : Bool :=
  Text.isBlank c && !(28 ≤ c.toNat && c.toNat ≤ 31)

-- A character in ASCII: a foreign digit as its ASCII digit; other foreign ones as a
-- question mark, which no number holds.
def toAscii (c : Char) : Char :=
  if c.toNat < 128 then c
  else match Text.digitValue? c with
    | some n => Char.ofNat (48 + n)
    | none => '?'

-- Take out the underscores, each of which stands between two digits.
def dropUnderscores (afterDigit : Bool) : List Char → Option (List Char)
  | [] => some []
  | '_' :: d :: rest =>
    if afterDigit && Text.isDigit d then (dropUnderscores true rest).map (d :: ·) else none
  | c :: rest =>
    if c = '_' then none else (dropUnderscores (Text.isDigit c) rest).map (c :: ·)

def signed (s : List Char) : Bool × List Char :=
  match s with
  | '-' :: rest => (true, rest)
  | '+' :: rest => (false, rest)
  | _ => (false, s)

-- The power of ten behind the digits: nothing, or e with a whole number.
def exponent? (s : List Char) : Option Int :=
  match s with
  | [] => some 0
  | c :: rest =>
    if c = 'e' ∨ c = 'E' then
      let (negative, ds) := signed rest
      if ds.isEmpty || !ds.all Text.isDigit then none
      else
        let n : Int := Text.decimal ds
        some (if negative then -n else n)
    else none

def unsigned? (negative : Bool) (s : List Char) : Option Double :=
  let word := String.ofList (s.map Char.toLower)
  if word = "inf" ∨ word = "infinity" then some (.infinite negative)
  else if word = "nan" then some .nan
  else
    let whole := s.takeWhile Text.isDigit
    let (frac, rest) := match s.dropWhile Text.isDigit with
      | '.' :: more => (more.takeWhile Text.isDigit, more.dropWhile Text.isDigit)
      | other => ([], other)
    if whole.isEmpty && frac.isEmpty then none
    else (exponent? rest).map fun x =>
      Double.ofDecimal negative (Text.decimal (whole ++ frac)) (x - frac.length)

-- The double that a text spells.
def double? (s : String) : Option Double := do
  let body := ((s.toList.dropWhile isMargin).reverse.dropWhile isMargin).reverse
  let cs ← dropUnderscores false (body.map toAscii)
  let (negative, rest) := signed cs
  unsigned? negative rest

end Dialect.Spelling
