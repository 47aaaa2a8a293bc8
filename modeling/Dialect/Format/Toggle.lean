import Dialect.Entries

-- Extension toggles: a sign and a name, as in +footnotes or -smart. Written one per
-- line they describe a dialect, written in a row they are the options of a format.

namespace Dialect.Format

structure Toggle where
  name : String
  enabled : Bool
deriving DecidableEq, Repr

-- A name is a word of small letters and underscores.
def isNameChar (c : Char) : Bool :=
  c == '_' || ('a' ≤ c && c ≤ 'z')

def isSign (c : Char) : Bool :=
  c == '+' || c == '-'

def isLineBreak (c : Char) : Bool :=
  c == '\r' || c == '\n'

namespace Toggle

-- The written form.
def signed (t : Toggle) : String :=
  (if t.enabled then "+" else "-") ++ t.name

-- One toggle for each sign that a name follows. Nothing else is looked at: a name holds
-- no sign, so going on behind the sign finds the same toggles as going on behind the name.
def scan : List Char → List Toggle
  | [] => []
  | c :: rest =>
    let name := rest.takeWhile isNameChar
    if isSign c && !name.isEmpty then ⟨String.ofList name, c == '+'⟩ :: scan rest
    else scan rest

-- The toggles of a text. Line breaks are taken out first, so a name may run over one.
def parse (text : String) : List Toggle :=
  scan (text.toList.filter fun c => !isLineBreak c)

-- Turn every plus of a text into a minus.
def disable (text : String) : String :=
  String.ofList (text.toList.map fun c => if c = '+' then '-' else c)

-- The state of each name after all toggles; a name stands where it came first.
def states (toggles : List Toggle) : Entries String Bool :=
  Entries.ofPairs (toggles.map fun t => (t.name, t.enabled))

end Toggle

end Dialect.Format
