import Dialect.Text.Digit

-- UTF-8. Bytes that are no text are told by the longest start of a character that they
-- make, so that both a strict reader's complaint and a forgiving reader's replacement
-- follow from one step.

namespace Dialect.Utf8

inductive Reason where
  | start
  | continuation
  | truncated
deriving DecidableEq, Repr

def Reason.message : Reason → String
  | start => "invalid start byte"
  | continuation => "invalid continuation byte"
  | truncated => "unexpected end of data"

-- Bytes that make no character: how many, the first of them, and why.
structure Flaw where
  length : Nat
  first : UInt8
  reason : Reason
deriving DecidableEq, Repr

-- What the first bytes are: a character, or a flaw.
inductive Step where
  | char (c : Char) (length : Nat)
  | flaw (f : Flaw)

-- How many bytes follow a first byte, the range of the second one, and the bits that the
-- first one brings.
structure Lead where
  follow : Nat
  low : UInt8
  high : UInt8
  bits : Nat

def lead? (b : UInt8) : Option Lead :=
  let n := b.toNat
  if 0xC2 ≤ n && n ≤ 0xDF then some ⟨1, 0x80, 0xBF, n - 0xC0⟩
  else if n = 0xE0 then some ⟨2, 0xA0, 0xBF, 0⟩
  else if n = 0xED then some ⟨2, 0x80, 0x9F, 13⟩
  else if 0xE1 ≤ n && n ≤ 0xEF then some ⟨2, 0x80, 0xBF, n - 0xE0⟩
  else if n = 0xF0 then some ⟨3, 0x90, 0xBF, 0⟩
  else if n = 0xF4 then some ⟨3, 0x80, 0x8F, 4⟩
  else if 0xF1 ≤ n && n ≤ 0xF3 then some ⟨3, 0x80, 0xBF, n - 0xF0⟩
  else none

-- The bytes behind the first one: `taken` are done, `follow` are still to come.
def following (first : UInt8) (low high : UInt8) (taken : Nat) :
    Nat → Nat → List UInt8 → Step
  | 0, bits, _ => .char (Char.ofNat bits) taken
  | _ + 1, _, [] => .flaw ⟨taken, first, .truncated⟩
  | follow + 1, bits, b :: rest =>
    if low ≤ b && b ≤ high then
      following first 0x80 0xBF (taken + 1) follow (bits * 64 + (b.toNat - 0x80)) rest
    else .flaw ⟨taken, first, .continuation⟩

def step (b : UInt8) (rest : List UInt8) : Step :=
  if b < 0x80 then .char (Char.ofNat b.toNat) 1
  else match lead? b with
    | none => .flaw ⟨1, b, .start⟩
    | some l => following b l.low l.high 1 l.follow l.bits rest

-- The first flaw of a byte text, with its place.
structure DecodeError where
  offset : Nat
  flaw : Flaw
deriving DecidableEq, Repr

def DecodeError.message (e : DecodeError) : String :=
  let place :=
    if e.flaw.length = 1 then
      "byte 0x" ++ String.ofList (Text.hexDigits 2 e.flaw.first.toNat) ++ " in position " ++
        toString e.offset
    else
      "bytes in position " ++ toString e.offset ++ "-" ++ toString (e.offset + e.flaw.length - 1)
  "'utf-8' codec can't decode " ++ place ++ ": " ++ e.flaw.reason.message

-- Decode from an offset on; the fuel is the number of bytes.
def decodeFrom (offset : Nat) : Nat → List UInt8 → Except DecodeError (List Char)
  | _, [] => .ok []
  | 0, _ :: _ => .ok []
  | fuel + 1, b :: rest =>
    match step b rest with
    | .flaw f => .error ⟨offset, f⟩
    | .char c n => do
      let cs ← decodeFrom (offset + n) fuel ((b :: rest).drop n)
      return c :: cs

def decodeChars (bytes : List UInt8) : Except DecodeError (List Char) :=
  decodeFrom 0 bytes.length bytes

-- Strict decoding.
def decode (bytes : List UInt8) : Except DecodeError String :=
  (decodeChars bytes).map String.ofList

def replaceFrom : Nat → List UInt8 → List Char
  | _, [] => []
  | 0, _ :: _ => []
  | fuel + 1, b :: rest =>
    match step b rest with
    | .flaw f => Char.ofNat 0xFFFD :: replaceFrom fuel ((b :: rest).drop f.length)
    | .char c n => c :: replaceFrom fuel ((b :: rest).drop n)

-- Forgiving decoding: U+FFFD for every flaw.
def decodeLossy (bytes : List UInt8) : String :=
  String.ofList (replaceFrom bytes.length bytes)

def encode (s : String) : List UInt8 :=
  s.toUTF8.toList

end Dialect.Utf8
