import Dialect.Config.Setting
import Dialect.Number.Shortest
import Dialect.Text.Quoted

-- Values as messages show them: words in capitals, quoted text, brackets and braces.

namespace Dialect

def Key.literal : Key → String
  | text t => Text.quoted t
  | other shown => shown

namespace Setting

def boolLiteral (b : Bool) : String :=
  if b then "True" else "False"

def Amount.literal : Amount → String
  | .flag b => boolLiteral b
  | .whole i => toString i
  | .real d => Shortest.text Shortest.plain d

mutual

def literal : Setting → String
  | null => "None"
  | bool b => boolLiteral b
  | int i => toString i
  | double d => Shortest.text Shortest.plain d
  | str s => Text.quoted s
  | arr [] => "[]"
  | arr (a :: rest) => "[" ++ literal a ++ itemLiterals rest ++ "]"
  | obj [] => "\x7b\x7d"
  | obj ((k, a) :: rest) =>
    "\x7b" ++ k.literal ++ ": " ++ literal a ++ memberLiterals rest ++ "\x7d"
  | other thing => thing.literal

def itemLiterals : List Setting → String
  | [] => ""
  | a :: rest => ", " ++ literal a ++ itemLiterals rest

def memberLiterals : List (Key × Setting) → String
  | [] => ""
  | (k, a) :: rest => ", " ++ k.literal ++ ": " ++ literal a ++ memberLiterals rest

end

end Setting

end Dialect
