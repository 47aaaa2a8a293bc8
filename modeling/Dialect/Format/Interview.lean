import Dialect.Engine.Error
import Dialect.Format.Negotiation

-- A negotiation with an engine whose answers are known, and what it was asked meanwhile.

namespace Dialect.Format

-- What an engine was asked and what was reported, in order.
structure Journal where
  asked : List String
  records : List Log.Record
deriving DecidableEq, Repr

-- Nothing was asked and nothing reported.
def Journal.blank : Journal := ⟨[], []⟩

-- A negotiation under observation.
abbrev Interview := ExceptT Engine.EngineError (StateM Journal)

-- What an engine says to each dialect.
abbrev Answers := String → Except Engine.EngineError String

namespace Interview

def ask (answers : Answers) (dialect : String) : Interview String := do
  modify fun j => { j with asked := j.asked ++ [dialect] }
  match answers dialect with
  | .ok text => return text
  | .error e => throw e

def note (r : Log.Record) : Interview Unit :=
  modify fun j => { j with records := j.records ++ [r] }

def engine (answers : Answers) : Format.Engine Interview :=
  ⟨ask answers, note⟩

-- The outcome of an interview, with its journal.
def observe {α : Type} (i : Interview α) : Except Engine.EngineError α × Journal :=
  (i.run).run Journal.blank

-- Resolve one request.
def resolve (answers : Answers) (request : String) :
    Except Engine.EngineError Resolved × Journal :=
  observe (Negotiation.resolve (engine answers) request)

end Interview

end Dialect.Format
