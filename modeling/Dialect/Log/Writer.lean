import Dialect.File.Tree
import Dialect.Log.Basic
import Dialect.Text.Letter

-- Where records go. Logging is set up as a whole: one level, the console, and at times a
-- file that gets a copy. A later set-up replaces the earlier one.

namespace Dialect.Log

-- How a record is written: plainly, or with the time and the logger's name.
inductive Layout where
  | plain
  | traced
deriving DecidableEq, Repr

-- A record as a line; `clock` is the time as it is written.
def Layout.line (layout : Layout) (clock : String) (r : Record) : Text :=
  match layout with
  | plain => levelName r.level ++ ": " ++ r.message ++ "\n"
  | traced =>
    "[" ++ clock ++ "] [" ++ levelName r.level ++ "] [" ++ r.logger ++ "] " ++ r.message ++ "\n"

inductive Sink where
  | console
  | file (place : Location)
deriving DecidableEq, Repr

structure Handler where
  sink : Sink
  level : Level
  layout : Layout
deriving DecidableEq, Repr

-- The level of all loggers, and that of the chatty ones, which is zero when they have none
-- of their own.
structure Setup where
  level : Level
  chattyLevel : Level
  handlers : List Handler
deriving DecidableEq, Repr

namespace Setup

-- Before the first set-up.
def bare : Setup := ⟨warning, 0, []⟩

-- The loggers that are held back, with all below them.
def chattyLoggers : List String := ["asyncio"]

def isChatty (logger : String) : Bool :=
  chattyLoggers.any fun name => logger == name || (name ++ ".").isPrefixOf logger

-- The level that a record of a logger needs.
def threshold (s : Setup) (logger : String) : Level :=
  if isChatty logger && s.chattyLevel != 0 then s.chattyLevel else s.level

-- Levels of zero and less are never written.
def admits (s : Setup) (r : Record) : Bool :=
  0 < r.level && s.threshold r.logger ≤ r.level

-- The set-up with the console alone.
def consoleOnly (level : Level) (layout : Layout) : Setup :=
  { level
    chattyLevel := match layout with
      | .plain => max level warning
      | .traced => 0
    handlers := [⟨.console, level, layout⟩] }

end Setup

-- The level that a name stands for in any case; a name that is unknown means INFO.
def levelOf (name : String) : Level :=
  (levelOfName? (Text.upperName name)).getD info

-- Logging with all that it writes to. `alarm` is what the library that logs says by itself, on
-- the console, when a file does not take the line of a record.
structure Writer where
  setup : Setup
  files : FileTree
  cwd : Path
  clock : String
  alarm : Record → String
  console : String

namespace Writer

def rootLogger : String := "root"

def start (files : FileTree) (cwd : Path) (clock : String) (alarm : Record → String) : Writer :=
  ⟨.bare, files, cwd, clock, alarm, ""⟩

-- Write on the console, which shows as an escape what it cannot encode.
def say (w : Writer) (text : Text) : Writer :=
  { w with console := w.console ++ text.escaped }

-- A file gets no line that it cannot encode.
def send (w : Writer) (sink : Sink) (line : Text) (alarm : String) : Writer :=
  match sink with
  | .console => w.say line
  | .file place =>
    match line.string? with
    | some text => { w with files := w.files.append place text }
    | none => { w with console := w.console ++ alarm }

def handle (w : Writer) (r : Record) (h : Handler) : Writer :=
  if h.level ≤ r.level then w.send h.sink (h.layout.line w.clock r) (w.alarm r) else w

-- Write a record wherever it has to go. Without any set-up warnings go to the console, with
-- nothing but their text.
def log (w : Writer) (r : Record) : Writer :=
  if w.setup.admits r then
    if w.setup.handlers.isEmpty then
      if warning ≤ r.level then w.say (r.message ++ "\n") else w
    else w.setup.handlers.foldl (fun w h => w.handle r h) w
  else w

def logAll (w : Writer) (records : List Record) : Writer :=
  records.foldl log w

-- The file that a name means, once it is open to be written at its end.
def openFile (w : Writer) (name : String) : Except PathError (Location × FileTree) :=
  w.files.openToAppend w.cwd (Path.absolute w.cwd (Path.ofText name))

-- Copy what is logged to a file as well. If it cannot be opened the console alone is used.
def copyTo (w : Writer) (name : String) (level : Level) (layout : Layout) : Writer :=
  match w.openFile name with
  | .error (.os e) =>
    w.log ⟨warning, rootLogger, "Cannot write log file " ++ name ++ ": " ++
      e.messageAbout (Path.absolute w.cwd (Path.ofText name)).text⟩
  | .error .nulByte => w
  | .ok (place, files) =>
    let handlers := w.setup.handlers ++ [⟨.file place, level, layout⟩]
    let w := { w with files, setup := { w.setup with handlers } }
    w.log ⟨debug, rootLogger, "Copying log output to " ++ name⟩

-- Set logging up anew. An empty file name is none.
def configure (w : Writer) (level : Level) (file : Option String) (layout : Layout) : Writer :=
  let w := { w with setup := Setup.consoleOnly level layout }
  match file with
  | some name => if name = "" then w else w.copyTo name level layout
  | none => w

-- Setting logging up fails for a file name that the system does not take. The console is set up
-- by then.
def rejects (w : Writer) (file : Option String) : Bool :=
  match file with
  | some name => name != "" && (Path.absolute w.cwd (Path.ofText name)).hasNul
  | none => false

-- What happens to a writer in the course of time.
inductive Event where
  | configure (level : Level) (file : Option String) (layout : Layout)
  | record (r : Record)
deriving DecidableEq, Repr

def step (w : Writer) : Event → Writer
  | .configure level file layout => w.configure level file layout
  | .record r => w.log r

-- The writer after each of a sequence of events.
def run (w : Writer) : List Event → List Writer
  | [] => []
  | e :: rest => w.step e :: run (w.step e) rest

end Writer

end Dialect.Log
