import Dialect.Text.Digit

-- Text as the program holds it: characters, and halves of surrogate pairs that stand on their
-- own. Escapes of JSON write such halves, and bytes may bring them; they are as good as
-- characters until they are to be printed or sent away, which is not possible.

namespace Dialect

-- A half is known by its distance from the first one, U+D800.
inductive Code where
  | char (c : Char)
  | half (distance : Fin 0x800)
deriving DecidableEq, Repr, Inhabited

namespace Code

instance : Coe Char Code := ⟨char⟩

def toNat : Code → Nat
  | char c => c.toNat
  | half d => 0xD800 + d

-- The code of a number below 0x110000.
def ofNat (n : Nat) : Code :=
  if h : 0xD800 ≤ n ∧ n < 0xE000 then half ⟨n - 0xD800, by omega⟩ else char (Char.ofNat n)

-- A half as an escape, a character as it is.
def escaped : Code → List Char
  | char c => [c]
  | half d => '\\' :: 'u' :: Text.hexDigits 4 (0xD800 + d)

-- The system takes the halves that stand for bytes, and no others.
def isForSystem : Code → Bool
  | char _ => true
  | half d => 0x480 ≤ d.val && d.val < 0x500

end Code

abbrev Text := List Code

namespace Text

def ofChars (cs : List Char) : Text :=
  cs.map Code.char

def of (s : String) : Text :=
  ofChars s.toList

instance : Coe String Text := ⟨of⟩

-- The characters of a text without halves.
def chars? : Text → Option (List Char)
  | [] => some []
  | .char c :: rest => (chars? rest).map (c :: ·)
  | .half _ :: _ => none

def string? (t : Text) : Option String :=
  t.chars?.map String.ofList

-- Whether a text can be encoded and printed.
def isPlain (t : Text) : Bool :=
  t.chars?.isSome

-- What the console shows of a text.
def escaped (t : Text) : String :=
  String.ofList (t.flatMap Code.escaped)

-- Texts one behind the other, with something between them.
def joined (between : Text) : List Text → Text
  | [] => []
  | [t] => t
  | t :: rest => t ++ between ++ joined between rest

end Text

end Dialect
