-- A format as a caller writes it: the name of a dialect, then toggles.

namespace Dialect.Format

structure Request where
  base : String
  options : String
deriving DecidableEq, Repr

namespace Request

def startsOptions (c : Char) : Bool :=
  c == '+' || c == '-'

-- Cut a format in front of its first sign.
def split (format : String) : Request :=
  let cs := format.toList
  ⟨String.ofList (cs.takeWhile fun c => !startsOptions c),
    String.ofList (cs.dropWhile fun c => !startsOptions c)⟩

def text (r : Request) : String :=
  r.base ++ r.options

-- Put toggles in front of the options of a format and behind them.
def extend (format first last : String) : String :=
  let r := split format
  r.base ++ first ++ r.options ++ last

end Request

end Dialect.Format
