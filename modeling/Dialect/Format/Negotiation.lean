import Dialect.Format.Request
import Dialect.Format.Resolved
import Dialect.Format.Toggle
import Dialect.Log.Basic

-- Negotiation: which dialect and which extensions a request comes to. Unknown dialects and
-- unknown extensions are dropped with a warning; only the engine can make it fail.

namespace Dialect.Format

-- The dialects that a request may name.
def supported : List String :=
  ["markdown", "markdown_phpextra", "markdown_github", "markdown_mmd", "markdown_strict",
    "gfm", "commonmark"]

-- What an unsupported dialect falls back to, and what the delta dialects build on.
def markdown : String := "markdown"

-- Dialects whose list is laid over the list of markdown with everything switched off.
def deltaDialects : List String :=
  ["commonmark", "gfm"]

-- An engine as far as negotiation sees it: the extension list of a dialect, and where
-- records go.
structure Engine (m : Type → Type) where
  listExtensions : String → m String
  log : Log.Record → m Unit

namespace Negotiation

def logger : String := "panbridge.formats.negotiation"

def fallbackRecord (base : String) : Log.Record :=
  ⟨Log.warning, logger,
    "Unsupported format '" ++ base ++ "', falling back to '" ++ markdown ++ "'"⟩

def unsupportedRecord (base name : String) : Log.Record :=
  ⟨Log.warning, logger, "Extension '" ++ name ++ "' is not supported by format '" ++ base ++ "'"⟩

def resolvedRecord (request : String) (r : Resolved) : Log.Record :=
  ⟨Log.debug, logger, "Resolved format '" ++ request ++ "' to '" ++ r.fullName ++ "' (" ++
    toString r.extensions.length ++ " extensions)"⟩

-- The dialect that a requested base stands for.
def dialectOf (base : String) : String :=
  if supported.contains base then base else markdown

def isDelta (dialect : String) : Bool :=
  deltaDialects.contains dialect

-- The list that gives a dialect its extensions and their states: its own, and for a delta
-- dialect in front of that the list of markdown with everything off.
def extensionText (dialect own shared : String) : String :=
  if isDelta dialect then Toggle.disable shared ++ own else own

-- Apply the toggles of a request to a dialect whose own list names `valid`.
def settle (dialect : String) (invalidFormat : String) (states : Entries String Bool)
    (valid : List String) (toggles : List Toggle) : Resolved :=
  let accepted := toggles.filter fun t => valid.contains t.name
  let rejected := toggles.filter fun t => !valid.contains t.name
  { baseName := dialect
    fullName := dialect ++ String.join (accepted.map Toggle.signed)
    extensions := Entries.putAll states (accepted.map fun t => (t.name, t.enabled))
    warnings := ⟨invalidFormat, rejected.map Toggle.name⟩ }

-- The answer to a request, from the texts that the engine gave.
def answer (request own shared : String) : Resolved :=
  let r := Request.split request
  let dialect := dialectOf r.base
  let states := Toggle.states (Toggle.parse (extensionText dialect own shared))
  let valid := (Toggle.parse own).map Toggle.name
  settle dialect (if supported.contains r.base then "" else r.base) states valid
    (Toggle.parse r.options)

variable {m : Type → Type} [Monad m]

-- Write records one after the other.
def logAll (engine : Engine m) : List Log.Record → m Unit
  | [] => pure ()
  | r :: rest => do
    engine.log r
    logAll engine rest

-- Resolve a request: ask for the dialect's own list, for a delta dialect also for that of
-- markdown, and report what was dropped.
def resolve (engine : Engine m) (request : String) : m Resolved := do
  let base := (Request.split request).base
  let dialect := dialectOf base
  if !supported.contains base then engine.log (fallbackRecord base)
  let own ← engine.listExtensions dialect
  let shared ← if isDelta dialect then engine.listExtensions markdown else pure ""
  let result := answer request own shared
  logAll engine (result.warnings.invalidOptions.map (unsupportedRecord dialect))
  engine.log (resolvedRecord request result)
  return result

end Negotiation

end Dialect.Format
