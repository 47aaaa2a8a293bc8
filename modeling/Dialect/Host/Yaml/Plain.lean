import Dialect.Text.Digit

-- What a plain scalar means by its looks alone, by the rules of YAML 1.1.

namespace Dialect.Host.Yaml

inductive Meaning where
  | nothing
  | truth
  | whole
  | double
  | moment
  | merge
  | default
  | text
deriving DecidableEq, Repr

def nullWords : List String := ["", "~", "null", "Null", "NULL"]

def truthWords : List String :=
  ["yes", "Yes", "YES", "no", "No", "NO", "true", "True", "TRUE", "false", "False", "FALSE",
    "on", "On", "ON", "off", "Off", "OFF"]

def isDigitOr_ (c : Char) : Bool := Text.isDigit c || c == '_'

def dropSign (s : List Char) : List Char :=
  match s with
  | '+' :: rest => rest
  | '-' :: rest => rest
  | _ => s

-- One or two digits below sixty behind each colon; at least one such part.
def isSixties : Nat → List Char → Bool
  | 0, _ => false
  | fuel + 1, s =>
    match s with
    | ':' :: a :: b :: rest =>
      if Text.isDigit b && Text.isDigit a && a.toNat ≤ 53 then rest.isEmpty || isSixties fuel rest
      else Text.isDigit a && isSixties fuel (b :: rest)
    | [':', a] => Text.isDigit a
    | _ => false

-- Whole numbers: binary, octal, decimal, hexadecimal, or in sixties.
def isWhole (s : List Char) : Bool :=
  match dropSign s with
  | '0' :: 'b' :: ds => !ds.isEmpty && ds.all fun c => c == '0' || c == '1' || c == '_'
  | '0' :: 'x' :: ds => !ds.isEmpty && ds.all fun c => (Text.hexValue? c).isSome || c == '_'
  | '0' :: ds => ds.all fun c => (48 ≤ c.toNat && c.toNat ≤ 55) || c == '_'
  | c :: rest =>
    Text.isDigit c &&
      match rest.dropWhile isDigitOr_ with
      | [] => true
      | more => isSixties more.length more
  | [] => false

-- Nothing, or e with a sign and digits.
def isPower (s : List Char) : Bool :=
  match s with
  | [] => true
  | e :: sign :: ds =>
    (e == 'e' || e == 'E') && (sign == '+' || sign == '-') && !ds.isEmpty && ds.all Text.isDigit
  | _ => false

-- Sixties up to a point, then a fraction.
def isSixtiesWithPoint (s : List Char) : Bool :=
  let front := s.takeWhile (· != '.')
  match s.dropWhile (· != '.') with
  | '.' :: frac => isSixties front.length front && frac.all isDigitOr_
  | _ => false

-- Doubles: a point is needed, and an exponent needs its sign.
def isDouble (s : List Char) : Bool :=
  let unsigned := dropSign s
  let word := String.ofList unsigned
  if [".inf", ".Inf", ".INF"].contains word then true
  else if [".nan", ".NaN", ".NAN"].contains (String.ofList s) then true
  else
    match unsigned with
    | '.' :: c :: rest =>
      s.length == unsigned.length && Text.isDigit c && isPower (rest.dropWhile isDigitOr_)
    | c :: rest =>
      Text.isDigit c &&
        match rest.dropWhile isDigitOr_ with
        | '.' :: frac => isPower (frac.dropWhile isDigitOr_)
        | more => isSixtiesWithPoint more
    | [] => false

-- The parts of a moment as they are written.
structure MomentParts where
  year : List Char
  month : List Char
  day : List Char
  -- hour, minute, second, and the digits of the fraction
  time : Option (List Char × List Char × List Char × List Char)
  -- sign, hours and minutes; a Z is a plus without hours
  offset : Option (Char × List Char × List Char)

-- Between `low` and `high` digits at the head of a text.
def someDigits (low high : Nat) (s : List Char) : Option (List Char × List Char) :=
  let ds := (s.take high).takeWhile Text.isDigit
  if low ≤ ds.length then some (ds, s.drop ds.length) else none

def exactly (c : Char) : List Char → Option (List Char)
  | d :: rest => if c = d then some rest else none
  | [] => none

def isBlankOrTab (c : Char) : Bool := c == ' ' || c == '\t'

def offsetParts? (s : List Char) : Option (Option (Char × List Char × List Char)) :=
  match s with
  | [] => some none
  | _ =>
    match s.dropWhile isBlankOrTab with
    | ['Z'] => some (some ('+', [], []))
    | sign :: rest =>
      if sign = '+' ∨ sign = '-' then do
        let (hours, r) ← someDigits 1 2 rest
        match r with
        | [] => return some (sign, hours, [])
        | r =>
          let (minutes, r) ← someDigits 2 2 (← exactly ':' r)
          if r.isEmpty then return some (sign, hours, minutes) else none
      else none
    | [] => none

-- A day, or a day with a time.
def momentParts? (s : List Char) : Option MomentParts := do
  let (year, r) ← someDigits 4 4 s
  let (month, r) ← someDigits 1 2 (← exactly '-' r)
  let (day, r) ← someDigits 1 2 (← exactly '-' r)
  match r with
  | [] => if month.length = 2 ∧ day.length = 2 then return ⟨year, month, day, none, none⟩ else none
  | c :: rest =>
    let r ← if c = 'T' ∨ c = 't' then some rest
      else if isBlankOrTab c then some (rest.dropWhile isBlankOrTab)
      else none
    let (hour, r) ← someDigits 1 2 r
    let (minute, r) ← someDigits 2 2 (← exactly ':' r)
    let (second, r) ← someDigits 2 2 (← exactly ':' r)
    let (frac, r) := match r with
      | '.' :: more => (more.takeWhile Text.isDigit, more.dropWhile Text.isDigit)
      | _ => ([], r)
    let offset ← offsetParts? r
    return ⟨year, month, day, some (hour, minute, second, frac), offset⟩

-- The meaning of a plain scalar.
def meaning (text : String) : Meaning :=
  let s := text.toList
  if nullWords.contains text then .nothing
  else if truthWords.contains text then .truth
  else if isDouble s then .double
  else if isWhole s then .whole
  else if (momentParts? s).isSome then .moment
  else if text = "<<" then .merge
  else if text = "=" then .default
  else .text

end Dialect.Host.Yaml
