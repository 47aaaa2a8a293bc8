import Dialect.Config.Moment

-- Dates and times in TOML.

namespace Dialect.Toml

-- Two digits of a number between two bounds.
def twoDigits? (low high : Nat) : List Char → Option (Nat × List Char)
  | a :: b :: rest =>
    let n := Text.decimal [a, b]
    if Text.isDigit a && Text.isDigit b && low ≤ n && n ≤ high then some (n, rest) else none
  | _ => none

def char? (c : Char) : List Char → Option (List Char)
  | d :: rest => if c = d then some rest else none
  | [] => none

def date? (s : List Char) : Option (Moment.Date × List Char) := do
  let ys := s.take 4
  if ys.length < 4 || !ys.all Text.isDigit then none
  else
    let (month, r) ← twoDigits? 1 12 (← char? '-' (s.drop 4))
    let (day, r) ← twoDigits? 1 31 (← char? '-' r)
    return (⟨Text.decimal ys, month, day⟩, r)

def time? (s : List Char) : Option (Moment.Time × List Char) := do
  let (hour, r) ← twoDigits? 0 23 s
  let (minute, r) ← twoDigits? 0 59 (← char? ':' r)
  let (second, r) ← twoDigits? 0 59 (← char? ':' r)
  let (micro, r) := match r with
    | '.' :: d :: more =>
      if Text.isDigit d then
        (Moment.micros ((d :: more).takeWhile Text.isDigit), more.dropWhile Text.isDigit)
      else (0, r)
    | _ => (0, r)
  return (⟨hour, minute, second, micro⟩, r)

def offset? (s : List Char) : Option (Moment.Offset × List Char) :=
  match s with
  | c :: rest =>
    if c = 'Z' ∨ c = 'z' then some (0, rest)
    else if c = '+' ∨ c = '-' then do
      let (hours, r) ← twoDigits? 0 23 rest
      let (minutes, r) ← twoDigits? 0 59 (← char? ':' r)
      let n : Int := hours * 60 + minutes
      return (if c = '-' then -n else n, r)
    else none
  | [] => none

-- The time behind a date, with its offset.
def timeBehind? (s : List Char) : Option (Moment.Time × Option Moment.Offset × List Char) :=
  match s with
  | c :: rest =>
    if c = 'T' ∨ c = 't' ∨ c = ' ' then
      (time? rest).map fun (t, r) =>
        match offset? r with
        | some (o, r) => (t, some o, r)
        | none => (t, none, r)
    else none
  | [] => none

-- What the head of a text is: no moment at all, a moment, or a day that no month has.
inductive MomentRead where
  | none
  | invalid
  | found (thing : Thing) (rest : List Char)

def moment (s : List Char) : MomentRead :=
  match date? s with
  | some (d, r) =>
    match d.check with
    | .error _ => .invalid
    | .ok () =>
      match timeBehind? r with
      | some (t, o, r) => .found (Moment.thing d t o) r
      | none => .found d.thing r
  | none =>
    match time? s with
    | some (t, r) => .found t.thing r
    | none => .none

end Dialect.Toml
