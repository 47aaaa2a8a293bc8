import Dialect.Host.Yaml.Error
import Dialect.Host.Yaml.Plain
import Dialect.Json.Basic
import Dialect.Number.Spelling
import Dialect.Text.Blank

-- The values of YAML scalars that write numbers and moments.

namespace Dialect.Host.Yaml

def parts (separator : Char) : List Char → List (List Char)
  | [] => [[]]
  | c :: rest =>
    match parts separator rest with
    | [] => [[c]]
    | p :: ps => if c = separator then [] :: p :: ps else (c :: p) :: ps

def digitIn? (base : Nat) (c : Char) : Option Nat :=
  let v := if c.toNat < 128 then Text.hexValue? c else Text.digitValue? c
  match v with
  | some n => if n < base then some n else none
  | none => none

-- A marker of the base that may stand in front of the digits: b, o or x behind a zero.
def dropMarker (base : Nat) (s : List Char) : List Char :=
  match s with
  | '0' :: m :: rest =>
    let m := m.toLower
    if (base = 2 ∧ m = 'b') ∨ (base = 8 ∧ m = 'o') ∨ (base = 16 ∧ m = 'x') then rest else s
  | _ => s

-- A whole number with an optional sign in a base, with blanks around it.
def wholeIn (base : Nat) (s : List Char) : Except Error Int :=
  let fail : Except Error Int := .error (.badWhole base (String.ofList s))
  let trimmed := Text.trimChars s
  let (negative, ds) : Bool × List Char := match trimmed with
    | '-' :: rest => (true, rest)
    | '+' :: rest => (false, rest)
    | _ => (false, trimmed)
  let ds := dropMarker base ds
  if ds.isEmpty then fail
  else
    match ds.mapM (digitIn? base) with
    | none => fail
    | some vs =>
      let n : Nat := vs.foldl (fun n v => n * base + v) 0
      .ok (if negative then -(n : Int) else n)

-- Numbers in sixties, the last of them the ones.
def inSixties (ns : List Int) : Int :=
  ns.foldl (fun n d => n * 60 + d) 0

def splitSign (s : List Char) : Bool × List Char :=
  match s with
  | '-' :: rest => (true, rest)
  | '+' :: rest => (false, rest)
  | _ => (false, s)

-- A whole number in any spelling; underscores do not count.
def whole (text : String) : Except Error Int :=
  match text.toList.filter (· != '_') with
  | [] => .error .noDigits
  | s =>
    let (negative, ds) := splitSign s
    let signed (n : Int) : Int := if negative then -n else n
    match ds with
    | ['0'] => .ok 0
    | '0' :: 'b' :: rest => (wholeIn 2 rest).map signed
    | '0' :: 'x' :: rest => (wholeIn 16 rest).map signed
    | '0' :: _ => (wholeIn 8 ds).map signed
    | [] => .error .noDigits
    | _ =>
      if ds.contains ':' then ((parts ':' ds).mapM (wholeIn 10)).map fun ns => signed (inSixties ns)
      else (wholeIn 10 ds).map signed

def spelled (s : List Char) : Except Error Double :=
  match Spelling.double? (String.ofList s) with
  | some d => .ok d
  | none => .error (.badDouble (String.ofList s))

-- Doubles in sixties, added up from the ones.
def doubleInSixties (ds : List Double) : Double :=
  let step (acc : Double × Int) (d : Double) : Double × Int :=
    (acc.1.add (d.mul (Double.ofInt acc.2)), acc.2 * 60)
  (ds.reverse.foldl step (Double.zero false, 1)).1

-- A double in any spelling; underscores do not count.
def double (text : String) : Except Error Double :=
  match (text.toList.filter (· != '_')).map Char.toLower with
  | [] => .error .noDigits
  | s =>
    let (negative, body) := splitSign s
    let signed (d : Double) : Double := if negative then d.negate else d
    if body = ".inf".toList then .ok (.infinite negative)
    else if body = ".nan".toList then .ok .nan
    else if body.contains ':' then
      ((parts ':' body).mapM spelled).map fun ds => signed (doubleInSixties ds)
    else (spelled body).map signed

-- A day, or a day with a time.
def moment (text : String) : Except Error Thing :=
  match momentParts? text.toList with
  | none => .error .noMoment
  | some p => do
    let number := Text.decimal
    let d : Moment.Date := ⟨number p.year, number p.month, number p.day⟩
    (d.check).mapError .badMoment
    match p.time with
    | none => return d.thing
    | some (hour, minute, second, frac) =>
      let t : Moment.Time :=
        ⟨number hour, number minute, number second, Moment.micros (frac.take 6)⟩
      (t.check).mapError .badMoment
      let offset : Option Moment.Offset := p.offset.map fun (sign, hours, minutes) =>
        let n : Int := (number hours * 60 + number minutes : Nat)
        if sign = '-' then -n else n
      match offset.filter fun o => 24 * 60 ≤ o.natAbs with
      | some o => throw (.badOffset o)
      | none => return Moment.thing d t offset

end Dialect.Host.Yaml
