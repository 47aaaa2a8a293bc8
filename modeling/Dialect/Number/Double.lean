-- Binary floating point numbers of 64 bits as exact values: a finite one is a whole
-- number of at most 53 bits times a power of two. Everything here is whole number
-- arithmetic, so rounding and comparison can be reasoned about.

namespace Dialect

inductive Double where
  | finite (negative : Bool) (mantissa : Nat) (exponent : Int)
  | infinite (negative : Bool)
  | nan
deriving DecidableEq, Repr, Inhabited

namespace Double

-- The least exponent: below it there are no more digits.
def minExponent : Int := -1074

-- The largest exponent of a finite number.
def maxExponent : Int := 971

def zero (negative : Bool) : Double := .finite negative 0 minExponent

-- The whole number nearest to num / den; a tie goes to the even one.
def roundDiv (num den : Nat) : Nat :=
  let q := num / den
  let r := num % den
  if 2 * r < den then q
  else if den < 2 * r then q + 1
  else if q % 2 = 0 then q else q + 1

-- num / den measured in units of 2 ^ e, as a fraction.
def scaled (num den : Nat) (e : Int) : Nat × Nat :=
  if 0 ≤ e then (num, den * Nat.pow 2 e.toNat) else (num * Nat.pow 2 (-e).toNat, den)

-- The double nearest to num / den.
def ofRatio (negative : Bool) (num den : Nat) : Double :=
  if num = 0 then zero negative
  else
    -- an exponent that leaves 53 or 54 bits in front of the point, or the least one
    let guess : Int := (Nat.log2 num : Int) - (Nat.log2 den : Int) - 53
    let fits (e : Int) : Bool :=
      let (n, d) := scaled num den e
      n / d < Nat.pow 2 53
    let e := if fits guess then guess else guess + 1
    let e := max e minExponent
    let (n, d) := scaled num den e
    let m := roundDiv n d
    -- rounding up may carry into one bit more
    let (m, e) := if m = Nat.pow 2 53 then (Nat.pow 2 52, e + 1) else (m, e)
    if maxExponent < e then .infinite negative else .finite negative m e

-- The double nearest to a whole number.
def ofInt (i : Int) : Double :=
  ofRatio (decide (i < 0)) i.natAbs 1

-- The double nearest to digits * 10 ^ exponent. Powers far out of range are not computed.
def ofDecimal (negative : Bool) (digits : Nat) (exponent : Int) : Double :=
  if digits = 0 then zero negative
  else
    let size : Int := (Nat.toDigits 10 digits).length + exponent
    if 400 < size then .infinite negative
    else if size < -400 then zero negative
    else if 0 ≤ exponent then ofRatio negative (digits * Nat.pow 10 exponent.toNat) 1
    else ofRatio negative digits (Nat.pow 10 (-exponent).toNat)

def isZero : Double → Bool
  | .finite _ m _ => m == 0
  | _ => false

-- Less than or equal to zero; not so for what is not a number.
def notPositive : Double → Bool
  | .finite negative m _ => negative || m == 0
  | .infinite negative => negative
  | .nan => false

-- A finite number as a fraction.
def toRatio : Bool → Nat → Int → Int × Nat
  | negative, m, e =>
    let m : Int := if negative then -(m : Int) else m
    if 0 ≤ e then (m * (Nat.pow 2 e.toNat : Nat), 1) else (m, Nat.pow 2 (-e).toNat)

-- Equal as numbers; both zeros are equal, and what is not a number equals nothing.
def sameNumber : Double → Double → Bool
  | .finite s m e, .finite t n f =>
    let (a, b) := toRatio s m e
    let (c, d) := toRatio t n f
    a * d == c * b
  | .infinite s, .infinite t => s == t
  | _, _ => false

-- Equal to a whole number.
def isInt (x : Double) (i : Int) : Bool :=
  match x with
  | .finite s m e =>
    let (a, b) := toRatio s m e
    a == i * b
  | _ => false

-- The nearest double to a sum. Two zeros, or two numbers that cancel, give the positive
-- zero unless both are negative.
def add : Double → Double → Double
  | .finite s m e, .finite t n f =>
    let (a, b) := toRatio s m e
    let (c, d) := toRatio t n f
    let sum := a * d + c * b
    if sum = 0 then zero (s && t) else ofRatio (decide (sum < 0)) sum.natAbs (b * d)
  | .infinite s, .infinite t => if s = t then .infinite s else .nan
  | .infinite s, .finite _ _ _ => .infinite s
  | .finite _ _ _, .infinite t => .infinite t
  | .nan, _ => .nan
  | _, .nan => .nan

-- The nearest double to a product.
def mul : Double → Double → Double
  | .finite s m e, .finite t n f =>
    let (a, b) := toRatio s m e
    let (c, d) := toRatio t n f
    ofRatio (s != t) (a * c).natAbs (b * d)
  | .infinite s, .infinite t => .infinite (s != t)
  | .infinite s, .finite t n _ => if n = 0 then .nan else .infinite (s != t)
  | .finite s m _, .infinite t => if m = 0 then .nan else .infinite (s != t)
  | .nan, _ => .nan
  | _, .nan => .nan

def negate : Double → Double
  | .finite s m e => .finite (!s) m e
  | .infinite s => .infinite (!s)
  | .nan => .nan

end Double

end Dialect
