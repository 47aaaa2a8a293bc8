import Dialect.Number.Double

-- The decimal text of a double: the fewest digits that read back as the same number,
-- and of those the nearest to it.

namespace Dialect.Shortest

-- A fraction of natural numbers with a positive denominator.
structure Ratio where
  num : Nat
  den : Nat

namespace Ratio

def lt (a b : Ratio) : Bool := a.num * b.den < b.num * a.den

def le (a b : Ratio) : Bool := a.num * b.den ≤ b.num * a.den

-- a * 2 ^ e
def timesTwo (a : Ratio) (e : Int) : Ratio :=
  if 0 ≤ e then ⟨a.num * Nat.pow 2 e.toNat, a.den⟩ else ⟨a.num, a.den * Nat.pow 2 (-e).toNat⟩

-- a / 10 ^ p
def overTen (a : Ratio) (p : Int) : Ratio :=
  if 0 ≤ p then ⟨a.num, a.den * Nat.pow 10 p.toNat⟩ else ⟨a.num * Nat.pow 10 (-p).toNat, a.den⟩

-- The distance of two fractions.
def gap (a b : Ratio) : Ratio :=
  let x := a.num * b.den
  let y := b.num * a.den
  ⟨if x ≤ y then y - x else x - y, a.den * b.den⟩

end Ratio

-- The numbers that round to m * 2 ^ e, with their ends if m is even.
structure Interval where
  low : Ratio
  high : Ratio
  closed : Bool

-- Below a power of two the next smaller double is half as far away.
def interval (m : Nat) (e : Int) : Interval :=
  let narrow := m == Nat.pow 2 52 && decide (Double.minExponent < e)
  { low := (if narrow then Ratio.mk (4 * m - 1) 4 else Ratio.mk (2 * m - 1) 2).timesTwo e
    high := (Ratio.mk (2 * m + 1) 2).timesTwo e
    closed := m % 2 == 0 }

def Interval.holds (i : Interval) (x : Ratio) : Bool :=
  if i.closed then i.low.le x && x.le i.high else i.low.lt x && x.lt i.high

-- The grid point n * 10 ^ p.
def gridPoint (n : Nat) (p : Int) : Ratio :=
  if 0 ≤ p then ⟨n * Nat.pow 10 p.toNat, 1⟩ else ⟨n, Nat.pow 10 (-p).toNat⟩

-- The grid point next to the value that lies in the interval, the nearer of two;
-- a tie goes to the even one.
def hit? (value : Ratio) (i : Interval) (p : Int) : Option Nat :=
  let x := value.overTen p
  let n := x.num / x.den
  let below := gridPoint n p
  let above := gridPoint (n + 1) p
  match i.holds below, i.holds above with
  | true, true =>
    let down := value.gap below
    let up := value.gap above
    if down.lt up then some n
    else if up.lt down then some (n + 1)
    else if n % 2 = 0 then some n else some (n + 1)
  | true, false => some n
  | false, true => some (n + 1)
  | false, false => none

-- The coarsest grid, from 10 ^ p downwards, that has a hit.
def search (value : Ratio) (i : Interval) : Nat → Int → Nat × Int
  | 0, p => (value.num / value.den, p)
  | fuel + 1, p =>
    match hit? value i p with
    | some n => if n = 0 then search value i fuel (p - 1) else (n, p)
    | none => search value i fuel (p - 1)

-- How many powers of ten n is less than; 1 for one digit.
def digitCount (n : Nat) : Nat :=
  (Nat.toDigits 10 n).length

-- Digits and exponent of m * 2 ^ e, which is not zero. The search starts one grid above
-- the leading digit, and seventeen digits always suffice.
def digits (m : Nat) (e : Int) : Nat × Int :=
  let value := (Ratio.mk m 1).timesTwo e
  let top : Int :=
    if value.den ≤ value.num then digitCount (value.num / value.den)
    else 1 - (digitCount (value.den / value.num) : Int)
  search value (interval m e) 22 (top + 1)

-- How a format writes its numbers: from which decimal exponent on, and below which one,
-- the power of ten is written out; and the words for what is not finite.
structure Style where
  leastPositional : Int
  mostPositional : Int
  infinity : String
  nan : String

def zeros (n : Nat) : String :=
  String.ofList (List.replicate n '0')

-- An exponent has a sign and at least two digits.
def exponentText (x : Int) : String :=
  let n := toString x.natAbs
  (if x < 0 then "e-" else "e+") ++ (if n.length < 2 then "0" ++ n else n)

-- A positive number from its digits, without trailing zeros, and its exponent.
def positiveText (style : Style) (n : Nat) (p : Int) : String :=
  let all := (Nat.toDigits 10 n)
  let ds := (all.reverse.dropWhile (· == '0')).reverse
  let lead : Int := p + all.length - 1
  if lead < style.leastPositional || style.mostPositional < lead then
    match ds with
    | [] => "0"
    | [d] => String.ofList [d] ++ exponentText lead
    | d :: rest => String.ofList (d :: '.' :: rest) ++ exponentText lead
  else if lead < 0 then
    "0." ++ zeros (-lead - 1).toNat ++ String.ofList ds
  else
    let whole := lead.toNat + 1
    let front := ds.take whole
    let back := ds.drop whole
    String.ofList front ++ zeros (whole - front.length) ++ "." ++
      (if back.isEmpty then "0" else String.ofList back)

def text (style : Style) : Double → String
  | .finite negative m e =>
    let sign := if negative then "-" else ""
    if m = 0 then sign ++ "0.0"
    else
      let (n, p) := digits m e
      sign ++ positiveText style n p
  | .infinite negative => (if negative then "-" else "") ++ style.infinity
  | .nan => style.nan

-- Numbers in messages: positional from 0.0001 up to below ten to the sixteenth.
def plain : Style := ⟨-4, 15, "inf", "nan"⟩

end Dialect.Shortest
