import Dialect.Entries
import Dialect.Json.Writer

-- What a format request comes to: a dialect, the toggles that were accepted, the state of
-- every extension, and what was dropped.

namespace Dialect.Format

structure Warnings where
  invalidFormat : String
  invalidOptions : List String
deriving DecidableEq, Repr

namespace Warnings

def none : Warnings := ⟨"", []⟩

def any (w : Warnings) : Bool :=
  w.invalidFormat != "" || !w.invalidOptions.isEmpty

end Warnings

structure Resolved where
  baseName : String
  fullName : String
  extensions : Entries String Bool
  warnings : Warnings
deriving DecidableEq, Repr

-- The names that are switched on, in the order of their characters.
def enabledNames (extensions : Entries String Bool) : List String :=
  ((extensions.filter fun e => e.2).map Prod.fst).mergeSort fun a b => !decide (b < a)

-- The state of a name; unknown names are off.
def isEnabled (extensions : Entries String Bool) (name : String) : Bool :=
  (Entries.get? name extensions).getD false

namespace Resolved

-- Equal whatever the order of the extensions.
def same (a b : Resolved) : Bool :=
  a.baseName == b.baseName && a.fullName == b.fullName &&
    Entries.sameBindings (· == ·) a.extensions b.extensions && a.warnings == b.warnings

end Resolved

end Dialect.Format
