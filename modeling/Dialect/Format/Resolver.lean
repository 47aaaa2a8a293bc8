import Dialect.Format.Resolver.Basic

-- The history of a resolver over an engine that answers from a table.

namespace Dialect.Format

-- A dialect with an entry among the failures fails with those words, one without a list
-- fails as well.
structure Catalogue where
  lists : Entries String String
  failures : Entries String String
deriving Repr

namespace Catalogue

def answers (c : Catalogue) : Answers := fun dialect =>
  match Entries.get? dialect c.failures with
  | some words => .error ⟨.listExtensions, .refused words (some 1)⟩
  | none =>
    match Entries.get? dialect c.lists with
    | some text => .ok text
    | none => .error ⟨.listExtensions, .refused ("no extension list for " ++ dialect) none⟩

def setList (c : Catalogue) (dialect text : String) : Catalogue :=
  { c with lists := Entries.put dialect text c.lists }

def setFailure (c : Catalogue) (dialect : String) (words : Option String) : Catalogue :=
  { c with failures := match words with
      | some words => Entries.put dialect words c.failures
      | none => Entries.erase dialect c.failures }

end Catalogue

namespace History

-- What is written in a history: a caller's steps, and changes of the table.
inductive Step where
  | resolve (request : String)
  | clear
  | setList (dialect text : String)
  | setFailure (dialect : String) (words : Option String)
  | edit (answer : Int) (name : String) (enabled : Bool)
  | look (answer : Int)
  | compare (first second : Int)
deriving Repr

structure State where
  catalogue : Catalogue
  resolver : Resolver.State

def start (c : Catalogue) : State :=
  ⟨c, Resolver.start c.answers⟩

structure Observation where
  shown : Resolver.Shown
  journal : Journal
  cached : Nat
deriving Repr

-- The change that a caller makes to an answer.
def change (name : String) (enabled : Bool) : Edit :=
  { fullName := (· ++ "!")
    extensions := Entries.put name enabled
    invalidOptions := (· ++ [name]) }

-- The table after a step.
def tableAfter (c : Catalogue) : Step → Catalogue
  | .setList dialect text => c.setList dialect text
  | .setFailure dialect words => c.setFailure dialect words
  | _ => c

-- A step as the resolver has it; a change of the table is a change of the engine.
def stepOf (c : Catalogue) : Step → Resolver.Step
  | .resolve request => .resolve request
  | .clear => .clear
  | .setList dialect text => .engine (c.setList dialect text).answers
  | .setFailure dialect words => .engine (c.setFailure dialect words).answers
  | .edit answer name enabled => .edit answer (change name enabled)
  | .look answer => .look answer
  | .compare first second => .compare first second

def stepsOf (c : Catalogue) : List Step → List Resolver.Step
  | [] => []
  | next :: rest => stepOf c next :: stepsOf (tableAfter c next) rest

-- The last state and one observation for each step.
def run (s : State) (steps : List Step) : State × List Observation :=
  let plan := stepsOf s.catalogue steps
  (⟨steps.foldl tableAfter s.catalogue, Resolver.after s.resolver plan⟩,
    (Resolver.events s.resolver plan).map fun e =>
      ⟨e.shown, e.journal, e.after.memory.kept.length⟩)

-- The dropped names of an answer that was shown as `r`. An answer keeps its list, so who
-- looks after the history sees the names that it has in the end.
def State.droppedNames (last : State) (place : Nat) (r : Resolved) : List String :=
  match last.resolver.read? place with
  | some now => now.warnings.invalidOptions
  | none => r.warnings.invalidOptions

end History

end Dialect.Format
