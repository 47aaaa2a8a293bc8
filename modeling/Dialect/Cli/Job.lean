import Dialect.Cli.Command
import Dialect.Config.Discovery
import Dialect.Engine.Process
import Dialect.Log.Writer

-- What a command does, step by step: it asks the engine and writes, until it is done or something
-- goes wrong. What it did before stays done.

namespace Dialect.Cli

-- How a run can end with an exit code.
inductive Exit where
  | success
  | engineError
  | invalidSettings
  | badInput
deriving DecidableEq, Repr

def Exit.code : Exit → Nat
  | success => 0
  | engineError => 2
  | invalidSettings => 3
  | badInput => 4

-- Errors that nobody handles.
inductive Fault where
  | config (error : Config.LoadError)
  | options (error : Engine.OptionsError)
  | engine (failure : Engine.Failure)
  | title (error : Document.TitleError)
  -- no file can have the name of the log file
  | logName
  -- nor that of the input
  | inputName
  -- a line holds what cannot be encoded
  | unprintable
  -- the library that draws refuses
  | drawing
deriving DecidableEq, Repr

inductive Ending where
  | exit (e : Exit)
  -- the arguments ended the run
  | stopped (s : Stop)
  | fault (f : Fault)
deriving DecidableEq, Repr

-- Why a command fails.
inductive Trouble where
  | engine (error : Engine.EngineError)
  | undecodable (source : String) (error : Utf8.DecodeError)
  | malformed (cause : Malformed)
  | unreadable (path : Path) (error : OsError)
  | fault (f : Fault)
deriving DecidableEq, Repr

namespace Trouble

def ending : Trouble → Ending
  | engine _ => .exit .engineError
  | undecodable _ _ => .exit .badInput
  | malformed _ => .exit .badInput
  | unreadable _ _ => .exit .badInput
  | fault f => .fault f

-- The line that tells the user; faults have none.
def line : Trouble → Text
  | engine error => "Error: " ++ error.message ++ "\n"
  | undecodable source error =>
    "Error: " ++ source ++ " is not UTF-8 encoded text: " ++ error.message ++ "\n"
  | malformed cause => "Error: " ++ cause.message ++ "\n"
  | unreadable path error =>
    "Error: cannot read input: " ++ error.messageAbout path.text ++ "\n"
  | fault _ => []

end Trouble

-- How far a command is.
structure Progress where
  output : String
  writer : Log.Writer
  launches : List Engine.Launch

abbrev Job := ExceptT Trouble (StateM Progress)

namespace Job

variable {α : Type}

-- Write as output, all of it or nothing.
def put (text : Text) : Job Unit :=
  match text.string? with
  | some text => modify fun p => { p with output := p.output ++ text }
  | none => throw (.fault .unprintable)

def print (line : Text) : Job Unit :=
  put (line ++ "\n")

-- Tell the user something beside the output.
def tell (line : Text) : Job Unit :=
  modify fun p => { p with writer := p.writer.say (line ++ "\n") }

-- Put a question to the engine and log what it reports.
def ask (o : Engine.Options) (programs : List Engine.Behaviour) (act : Engine.Act α) : Job α := do
  let (result, session) := (Engine.Session.start o programs).perform act
  modify fun p =>
    { p with
      writer := p.writer.logAll session.records
      launches := p.launches ++ session.launches }
  match result with
  | .ok answer => return answer
  | .error (.engine error) => throw (.engine error)
  | .error failure => throw (.fault (.engine failure))

end Job

namespace Progress

def start (writer : Log.Writer) : Progress := ⟨"", writer, []⟩

-- The outcome of a job and how far it came.
def perform {α : Type} (p : Progress) (job : Job α) : Except Trouble α × Progress :=
  (job.run).run p

end Progress

end Dialect.Cli
