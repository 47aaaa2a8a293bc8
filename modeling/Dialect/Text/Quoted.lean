import Dialect.Text.Code
import Dialect.Text.Printable

-- Text in quotes, as messages show it: single quotes, unless the text has one and no
-- double quote. What cannot be shown is written as an escape.

namespace Dialect.Text

def quotedChar (quote : Char) (c : Char) : List Char :=
  let n := c.toNat
  if c = quote ∨ c = '\\' then ['\\', c]
  else if c = '\n' then ['\\', 'n']
  else if c = '\r' then ['\\', 'r']
  else if c = '\t' then ['\\', 't']
  else if isPrintable c then [c]
  else if n < 0x100 then '\\' :: 'x' :: hexDigits 2 n
  else if n < 0x10000 then '\\' :: 'u' :: hexDigits 4 n
  else '\\' :: 'U' :: hexDigits 8 n

def quotedCode (quote : Char) : Code → List Char
  | .char c => quotedChar quote c
  | half => half.escaped

def quoted (t : Text) : String :=
  let quote := if t.contains (.char '\'') && !t.contains (.char '"') then '"' else '\''
  String.ofList (quote :: (t.flatMap (quotedCode quote) ++ [quote]))

end Dialect.Text
