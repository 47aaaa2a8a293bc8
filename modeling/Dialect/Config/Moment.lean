import Dialect.Config.Setting
import Dialect.Text.Digit

-- Dates and times as configuration files write them. As text they have one form each: 2024-02-29,
-- 12:30:00.250000, 2024-02-29 12:30:00+02:00.

namespace Dialect.Moment

structure Date where
  year : Nat
  month : Nat
  day : Nat
deriving DecidableEq, Repr

structure Time where
  hour : Nat
  minute : Nat
  second : Nat
  micro : Nat
deriving DecidableEq, Repr

-- Minutes ahead of universal time.
abbrev Offset := Int

def isLeap (year : Nat) : Bool :=
  year % 4 == 0 && (year % 100 != 0 || year % 400 == 0)

def daysIn (year month : Nat) : Nat :=
  if month = 2 then if isLeap year then 29 else 28
  else if month = 4 ∨ month = 6 ∨ month = 9 ∨ month = 11 then 30
  else 31

-- What is wrong with numbers that should be a date and a time.
inductive Flaw where
  | year (found : Nat)
  | month
  | day
  | hour
  | minute
  | second
deriving DecidableEq, Repr

def Flaw.message : Flaw → String
  | year found => "year " ++ toString found ++ " is out of range"
  | month => "month must be in 1..12"
  | day => "day is out of range for month"
  | hour => "hour must be in 0..23"
  | minute => "minute must be in 0..59"
  | second => "second must be in 0..59"

def Date.check (d : Date) : Except Flaw Unit :=
  if d.year = 0 then .error (.year d.year)
  else if d.month = 0 ∨ 12 < d.month then .error .month
  else if d.day = 0 ∨ daysIn d.year d.month < d.day then .error .day
  else .ok ()

def Time.check (t : Time) : Except Flaw Unit :=
  if 23 < t.hour then .error .hour
  else if 59 < t.minute then .error .minute
  else if 59 < t.second then .error .second
  else .ok ()

-- A number with zeros in front of it.
def padded (width n : Nat) : String :=
  let ds := Nat.toDigits 10 n
  String.ofList (List.replicate (width - ds.length) '0' ++ ds)

def Date.text (d : Date) : String :=
  padded 4 d.year ++ "-" ++ padded 2 d.month ++ "-" ++ padded 2 d.day

def Time.text (t : Time) : String :=
  padded 2 t.hour ++ ":" ++ padded 2 t.minute ++ ":" ++ padded 2 t.second ++
    (if t.micro = 0 then "" else "." ++ padded 6 t.micro)

def offsetText (o : Offset) : String :=
  (if o < 0 then "-" else "+") ++ padded 2 (o.natAbs / 60) ++ ":" ++ padded 2 (o.natAbs % 60)

def text (d : Date) (t : Time) (o : Option Offset) : String :=
  d.text ++ " " ++ t.text ++ (o.map offsetText).getD ""

-- A call as messages show it.
def called (name : String) (args : List String) : String :=
  name ++ "(" ++ ", ".intercalate args ++ ")"

-- The numbers of a date and of a time; of a time the seconds may be left out, and the millionths.
def Date.numbers (d : Date) : List String :=
  [d.year, d.month, d.day].map toString

def Time.numbers (t : Time) : List String :=
  let ns :=
    if t.micro ≠ 0 then [t.hour, t.minute, t.second, t.micro]
    else if t.second ≠ 0 then [t.hour, t.minute, t.second]
    else [t.hour, t.minute]
  ns.map toString

-- An offset as a difference of whole days and seconds, the seconds not negative.
def differenceLiteral (o : Offset) : String :=
  let seconds := o * 60
  let days := seconds.fdiv 86400
  let rest := seconds.fmod 86400
  called "datetime.timedelta"
    ((if days = 0 then [] else ["days=" ++ toString days]) ++
      (if rest = 0 then [] else ["seconds=" ++ toString rest]))

def offsetLiteral (o : Offset) : String :=
  if o = 0 then "datetime.timezone.utc"
  else called "datetime.timezone" [differenceLiteral o]

-- A value of this module: it counts as true and is no number.
def thingOf (kind literal text : String) : Thing where
  kind
  fullKind := "datetime." ++ kind
  literal
  text
  truthy := true
  number? := none

def Date.thing (d : Date) : Thing :=
  thingOf "date" (called "datetime.date" d.numbers) d.text

def Time.thing (t : Time) : Thing :=
  thingOf "time" (called "datetime.time" t.numbers) t.text

def thing (d : Date) (t : Time) (o : Option Offset) : Thing :=
  thingOf "datetime"
    (called "datetime.datetime"
      (d.numbers ++ t.numbers ++ o.toList.map fun o => "tzinfo=" ++ offsetLiteral o))
    (text d t o)

-- The millionths of a second that the digits behind a point write; six of them count.
def micros (ds : List Char) : Nat :=
  Text.decimal ((ds ++ List.replicate 6 '0').take 6)

end Dialect.Moment
