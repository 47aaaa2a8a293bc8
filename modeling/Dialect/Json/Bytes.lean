import Dialect.Json.Reader
import Dialect.Text.Utf8

-- JSON from bytes. The encoding is told by a byte order mark or else by where the zero
-- bytes are, because JSON text begins with two ASCII characters.

namespace Dialect.Json

inductive Encoding where
  | utf8
  | utf16 (bigEndian : Bool)
  | utf32 (bigEndian : Bool)
deriving DecidableEq, Repr

-- The encoding of a text and the length of its byte order mark.
def detect : List UInt8 → Encoding × Nat
  | 0x00 :: 0x00 :: 0xFE :: 0xFF :: _ => (.utf32 true, 4)
  | 0xFF :: 0xFE :: 0x00 :: 0x00 :: _ => (.utf32 false, 4)
  | 0xFE :: 0xFF :: _ => (.utf16 true, 2)
  | 0xFF :: 0xFE :: _ => (.utf16 false, 2)
  | 0xEF :: 0xBB :: 0xBF :: _ => (.utf8, 3)
  | a :: b :: c :: d :: _ =>
    if a = 0 then (if b = 0 then .utf32 true else .utf16 true, 0)
    else if b = 0 then (if c = 0 ∧ d = 0 then .utf32 false else .utf16 false, 0)
    else (.utf8, 0)
  | [a, b] =>
    if a = 0 then (.utf16 true, 0) else if b = 0 then (.utf16 false, 0) else (.utf8, 0)
  | _ => (.utf8, 0)

-- Half of a surrogate pair that stands on its own, in the three bytes that a character of its
-- number would take, and the bytes behind it.
def half? : List UInt8 → Option (Code × List UInt8)
  | a :: b :: c :: rest =>
    if a = 0xED && 0xA0 ≤ b && b ≤ 0xBF && 0x80 ≤ c && c ≤ 0xBF then
      some (Code.ofNat (0xD000 + (b.toNat - 0x80) * 64 + (c.toNat - 0x80)), rest)
    else none
  | _ => none

-- Bytes in UTF-8 as codes. Halves of surrogate pairs pass here. The fuel is the number of bytes.
def utf8Codes? : Nat → List UInt8 → Option Text
  | _, [] => some []
  | 0, _ :: _ => none
  | fuel + 1, b :: rest =>
    match Utf8.step b rest with
    | .char c n => (utf8Codes? fuel ((b :: rest).drop n)).map (.char c :: ·)
    | .flaw _ =>
      (half? (b :: rest)).bind fun (code, tail) => (utf8Codes? fuel tail).map (code :: ·)

-- Pairs of bytes as units; nothing if a byte is left over.
def units16? (bigEndian : Bool) : List UInt8 → Option (List Nat)
  | [] => some []
  | [_] => none
  | a :: b :: rest =>
    (units16? bigEndian rest).map fun us =>
      (if bigEndian then a.toNat * 256 + b.toNat else b.toNat * 256 + a.toNat) :: us

-- Units as codes; two halves that follow one another are a character.
def ofUnits16 : List Nat → Text
  | [] => []
  | [u] => [Code.ofNat u]
  | u :: v :: rest =>
    if isHighSurrogate u && isLowSurrogate v then pairChar u v :: ofUnits16 rest
    else Code.ofNat u :: ofUnits16 (v :: rest)

def units32? (bigEndian : Bool) : List UInt8 → Option (List Nat)
  | [] => some []
  | a :: b :: c :: d :: rest =>
    let number (w x y z : UInt8) : Nat :=
      ((w.toNat * 256 + x.toNat) * 256 + y.toNat) * 256 + z.toNat
    (units32? bigEndian rest).map fun us =>
      (if bigEndian then number a b c d else number d c b a) :: us
  | _ => none

def decode? (bytes : List UInt8) : Option Text :=
  let (encoding, mark) := detect bytes
  let body := bytes.drop mark
  match encoding with
  | .utf8 => utf8Codes? body.length body
  | .utf16 big => (units16? big body).map ofUnits16
  | .utf32 big => (units32? big body).bind fun us =>
      if us.all (· < 0x110000) then some (us.map Code.ofNat) else none

-- Why bytes are no JSON value.
inductive BytesError where
  | undecodable
  | malformed (error : SyntaxError)
deriving DecidableEq, Repr

def readBytes (bytes : List UInt8) : Except BytesError Json :=
  match decode? bytes with
  | none => .error .undecodable
  | some s => (readCodes s).mapError .malformed

end Dialect.Json
