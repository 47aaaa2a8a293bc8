import Dialect.Engine.Error
import Dialect.Engine.Options
import Dialect.Format.Negotiation
import Dialect.Text.Blank

-- An engine that runs a program for every question. What a program does when it is started
-- is given beforehand; what was started, with which input, and how it was left, is kept.

namespace Dialect.Engine

-- What a program does when it is started.
inductive Behaviour where
  | fails (error : OsError)
  | ends (output complaint : List UInt8) (code : Int)
  -- it does not end by itself; `exited` tells whether its exit code is known all the same,
  -- `vanished` whether it is gone when it is to be killed
  | hangs (exited vanished : Bool)
deriving DecidableEq, Repr

-- What is done to a program after its start.
inductive Deed where
  -- its input is sent and its output is read, to the end or not
  | converse (finished : Bool)
  -- it is told to end
  | kill
  -- its end is waited for
  | wait
deriving DecidableEq, Repr

-- How a program was used.
structure Launch where
  argv : List Text
  -- whether input can be sent to it
  pipe : Bool
  started : Bool
  -- what was sent to it
  input : Option String
  -- what was done to it, in order
  deeds : List Deed
deriving DecidableEq, Repr

namespace Launch

def killed (l : Launch) : Bool := l.deeds.contains .kill
def waited (l : Launch) : Bool := l.deeds.contains .wait

def add (d : Deed) (l : Launch) : Launch :=
  { l with deeds := l.deeds ++ [d] }

end Launch

structure Session where
  options : Options
  programs : List Behaviour
  launches : List Launch
  records : List Log.Record
deriving Repr

-- Why a question is not answered.
inductive Failure where
  | engine (e : EngineError)
  -- the caller gave up
  | cancelled
  -- the program is no text, so there is no command line
  | noCommand
  -- the program hangs and nobody ends it
  | endless
  -- the program is gone and cannot be killed
  | vanished
  -- an argument or the input holds what cannot be encoded
  | unencodable
  -- an argument holds the character that ends arguments
  | nulByte
  -- the timeout is out of the range of the clock
  | overflow
deriving DecidableEq, Repr

abbrev Act := ExceptT Failure (StateM Session)

variable {α : Type}

namespace Session

def start (options : Options) (programs : List Behaviour) : Session :=
  ⟨options, programs, [], []⟩

def logger : String := "panbridge.engine.process"

def note (r : Log.Record) : Act Unit :=
  modify fun s => { s with records := s.records ++ [r] }

def noteAt (level : Log.Level) (message : Text) : Act Unit :=
  note ⟨level, logger, message⟩

-- What the next program does; there is none when all are used up.
def nextProgram : Act Behaviour := do
  let s ← get
  match s.programs with
  | [] => return .fails .missing
  | p :: rest =>
    set { s with programs := rest }
    return p

def keep (l : Launch) : Act Unit :=
  modify fun s => { s with launches := s.launches ++ [l] }

def failWith (operation : Operation) (cause : Cause) : Act α :=
  throw (.engine ⟨operation, cause⟩)

-- The answer of a program that ended.
def finish (operation : Operation) (output complaint : List UInt8) (code : Int) :
    Act String := do
  let words := Text.trim (Utf8.decodeLossy complaint)
  if code ≠ 0 then failWith operation (.exited code words)
  if words ≠ "" then
    noteAt Log.debug ("pandoc " ++ operation.name ++ ": " ++ words)
  match Utf8.decode output with
  | .ok text => return text
  | .error _ => failWith operation .undecodable

-- Something is done to the program that was started last.
def amend (change : Launch → Launch) : Act Unit :=
  modify fun s =>
    { s with launches := s.launches.dropLast ++ s.launches.getLast?.toList.map change }

def did (d : Deed) : Act Unit :=
  amend (Launch.add d)

-- Send the input and read the output, to the end or not.
def converse (input : Option String) (finished : Bool) : Act Unit :=
  amend fun l => { l.add (.converse finished) with input }

-- Tell a program to end. There may be no such program any more.
def kill (vanished : Bool) : Act Unit := do
  did .kill
  if vanished then throw .vanished

-- That a program is gone when it is to be killed is no failure.
def tolerate (act : Act Unit) : Act Unit :=
  tryCatch act fun failure => if failure = .vanished then pure () else throw failure

-- Leave a program that hangs: it is killed only if its exit code is not known yet, and it is
-- waited for.
def abandon (exited vanished : Bool) : Act Unit := do
  if !exited then tolerate (kill vanished)
  did .wait

-- What keeps an argument from being handed to a program.
def argumentFault? (argument : Text) : Option Failure :=
  if !argument.all Code.isForSystem then some .unencodable
  else if argument.contains (.char (Char.ofNat 0)) then some .nulByte
  else none

-- What goes wrong while the program is running already: its input cannot be encoded, or the time
-- for it cannot be counted.
def inputFault? (timeout : Option Setting.Amount) (input : Option Text) : Option Failure :=
  if !input.all Text.isPlain then some .unencodable
  else if timeout.any Options.isOutOfRange then some .overflow
  else none

def throwAny (fault : Option Failure) : Act Unit :=
  match fault with
  | some failure => throw failure
  | none => pure ()

-- Run the program once. `cancel` tells that the caller gives up when the program hangs.
def run (operation : Operation) (args : List Text) (input : Option Text) (cancel : Bool) :
    Act String := do
  let o := (← get).options
  let .str program := o.program | throw .noCommand
  noteAt Log.debug ("Running " ++ Text.joined " " (program :: args))
  throwAny ((program :: args).findSome? argumentFault?)
  let launch : Launch :=
    { argv := program :: args, pipe := input.isSome, started := true, input := none, deeds := [] }
  match ← nextProgram with
  | .fails error =>
    keep { launch with started := false }
    if error.number = 2 then failWith operation (.notFound program error)
    else failWith operation (.notStarted error)
  | .ends output complaint code =>
    keep launch
    throwAny (inputFault? o.timeout input)
    converse (input.bind Text.string?) true
    finish operation output complaint code
  | .hangs exited vanished =>
    keep launch
    throwAny (inputFault? o.timeout input)
    converse (input.bind Text.string?) false
    if cancel then
      abandon exited vanished
      throw .cancelled
    match o.timeout with
    | some t =>
      abandon exited vanished
      noteAt Log.warning
        ("pandoc " ++ operation.name ++ " timed out after " ++ t.literal ++ " seconds")
      failWith operation (.timedOut t)
    | none => throw .endless

-- The extension list of a dialect.
def listExtensions (cancel : Bool) (dialect : Text) : Act String :=
  run .listExtensions ["--list-extensions=" ++ dialect] none cancel

-- The first line of what the program says of itself.
def version (cancel : Bool) : Act String := do
  let text ← run .version ["--version"] none cancel
  return Text.trim (Text.firstLine text)

def markdownToAst (cancel : Bool) (markdown format : Text) (options : List Text) :
    Act Document := do
  let extra := (← get).options.extraArgs
  let text ← run .markdownToAst
    ((["--from", format, "--to", "json"] : List Text) ++ extra ++ options) (some markdown) cancel
  match Document.ofText (Text.of text) with
  | .ok d => return d
  | .error fault => failWith .markdownToAst (.notDocument fault)

def astToMarkdown (cancel : Bool) (d : Document) (format : Text) (options : List Text) :
    Act String := do
  let extra := (← get).options.extraArgs
  run .astToMarkdown ((["--from", "json", "--to", format] : List Text) ++ extra ++ options)
    (some (d.text none)) cancel

-- Negotiation over this engine.
def negotiator (cancel : Bool) : Format.Engine Act :=
  ⟨fun dialect => listExtensions cancel (Text.of dialect), note⟩

def resolve (cancel : Bool) (request : String) : Act Format.Resolved :=
  Format.Negotiation.resolve (negotiator cancel) request

-- The outcome of a question and the session after it.
def perform {α : Type} (s : Session) (act : Act α) : Except Failure α × Session :=
  (act.run).run s

end Session

-- A question as a caller puts it.
inductive Call where
  | listExtensions (dialect : Text)
  | version
  | markdownToAst (markdown format : Text) (options : List Text)
  | astToMarkdown (document : Document) (format : Text) (options : List Text)
  | resolve (request : String)

inductive Reply where
  | text (s : String)
  | document (d : Document)
  | resolved (r : Format.Resolved)

def Call.act (cancel : Bool) : Call → Act Reply
  | listExtensions dialect => .text <$> Session.listExtensions cancel dialect
  | version => .text <$> Session.version cancel
  | markdownToAst markdown format options =>
    .document <$> Session.markdownToAst cancel markdown format options
  | astToMarkdown d format options => .text <$> Session.astToMarkdown cancel d format options
  | resolve request => .resolved <$> Session.resolve cancel request

-- Calls one after the other on one engine.
def Session.performAll (s : Session) :
    List (Call × Bool) → List (Except Failure Reply) × Session
  | [] => ([], s)
  | (call, cancel) :: rest =>
    let (result, s) := s.perform (call.act cancel)
    let (results, s) := s.performAll rest
    (result :: results, s)

end Dialect.Engine
