import Dialect.Cli.Drawing
import Dialect.Cli.Job
import Dialect.Format.Record

-- A run of the program: from the arguments and the machine around it to an exit code, what
-- is written on both channels, and the files afterwards.

namespace Dialect.Cli

-- What a run sees of the machine. Programs that are started take the next behaviour. Of the
-- library that draws nothing is known but that it answers a text or refuses, and of the one that
-- logs but what it does with a line.
structure Machine where
  surroundings : Config.Surroundings
  -- the configuration file and the program that the environment names
  configPath : Option String
  program : Option String
  input : List UInt8
  programs : List Engine.Behaviour
  clock : String
  alarm : Log.Record → String
  draw : Drawing → Option String

structure Outcome where
  ending : Ending
  output : String
  console : String
  files : FileTree
  launches : List Engine.Launch
deriving Repr

-- What a job comes to. An error that somebody handles is told to the user.
def Progress.outcome : Except Trouble Unit × Progress → Outcome
  | (result, p) =>
    let (ending, writer) : Ending × Log.Writer := match result with
      | .ok () => (.exit .success, p.writer)
      | .error trouble => (trouble.ending, p.writer.say trouble.line)
    { ending
      output := p.output
      console := writer.console
      files := writer.files
      launches := p.launches }

def logger : String := "panbridge.cli"

-- The level of a run: tracing means DEBUG, then comes the setting, then the configuration.
def levelFor (s : Settings) (config : Entries Key Setting) : Log.Level :=
  if s.trace then Log.debug
  else
    match s.level with
    | some level => level
    | none =>
      let chosen := (Entries.get? ("log_level" : Key) config).getD .null
      if !chosen.truthy then Log.warning
      else
        match chosen with
        | .int level => level
        | .bool _ => 1
        | .str name => (name.string?.map Log.levelOf).getD Log.info
        | .other thing => Log.levelOf thing.text
        | _ => Log.info

def nonempty (s : Option String) : Option String :=
  s.filter (· != "")

-- A text that is named, as a setting; an empty one is none.
def named (s : Option String) : Option Setting :=
  (nonempty s).map fun s => .str (Text.of s)

-- One setting of the options laid over the others, if there is one.
def override (key : Key) (value : Option Setting) (o : Engine.Options) :
    Except Engine.OptionsError Engine.Options :=
  match value with
  | none => .ok o
  | some v => o.update (.obj [(key, v)])

-- The options of the engine: the configuration, over it the program of the environment, and
-- over that the settings.
def optionsFor (s : Settings) (environment : Option String) (config : Entries Key Setting) :
    Except Engine.OptionsError Engine.Options := do
  let o ← Engine.Options.ofConfig (.obj config)
  let o ← override Engine.Options.programKey (named environment) o
  let o ← override Engine.Options.programKey (named s.program) o
  override Engine.Options.timeoutKey (s.timeout.map .double) o

-- The warnings of a resolved format, for the user.
def warningLines (r : Format.Resolved) : List String :=
  (if r.warnings.invalidFormat = "" then []
    else ["Warning: unsupported format '" ++ r.warnings.invalidFormat ++ "', using '" ++
      r.baseName ++ "'"]) ++
    r.warnings.invalidOptions.map fun name =>
      "Warning: extension '" ++ name ++ "' is not supported by '" ++ r.baseName ++ "'"

def plainLines (r : Format.Resolved) : List String :=
  let enabled := Format.enabledNames r.extensions
  let names := if enabled.isEmpty then "none" else ", ".intercalate enabled
  ["Format: " ++ r.fullName, "Base: " ++ r.baseName,
    "Enabled extensions (" ++ toString enabled.length ++ "): " ++ names]

-- A text without the line feeds at its end.
def openEnd (s : String) : String :=
  String.ofList (s.toList.reverse.dropWhile (· == '\n')).reverse

namespace Machine

open Job (print tell)

variable (m : Machine)

def present (drawing : Drawing) : Job Unit :=
  match m.draw drawing with
  | some picture => Job.put (Text.of picture)
  | none => throw (.fault .drawing)

def runResolve (o : Engine.Options) (request : String) (view : View) : Job Unit := do
  let r ← Job.ask o m.programs (Engine.Session.resolve false request)
  match view with
  | .json => print (r.text (some 2))
  | .plain =>
    forM (warningLines r) fun line => tell (Text.of line)
    forM (plainLines r) fun line => print (Text.of line)
  | .table =>
    m.present (Drawing.ofFormat r)
    m.present (Drawing.ofExtensions r.extensions)

def runExtensions (o : Engine.Options) (dialect : String) : Job Unit := do
  let names ← Job.ask o m.programs (Engine.Session.listExtensions false (Text.of dialect))
  print (Text.of (openEnd names))

-- The document in a file, or on the standard input.
def document (files : FileTree) (source : String) : Except Trouble Document := do
  let path := Path.ofText source
  let bytes ← if source = "-" then .ok m.input
    else (files.readBytes m.surroundings.cwd path).mapError fun e =>
      match e with
      | .os error => .unreadable path error
      | .nulByte => .fault .inputName
  let text ← (textOfBytes bytes).mapError (.undecodable source)
  (Document.ofText (Text.of text)).mapError .malformed

def readDocument (source : String) : Job Document := do
  let p ← get
  m.document p.writer.files source

-- One line for each block.
def runText (source : String) : Job Unit := do
  let d ← m.readDocument source
  forM d.roots fun block => print (Token.collectText [block])

def runTitle (source : String) : Job Unit := do
  let d ← m.readDocument source
  match d.title with
  | .ok title => print title
  | .error error => throw (.fault (.title error))

def runCommand (o : Engine.Options) : Command → Job Unit
  | .resolve request view => m.runResolve o request view
  | .extensions dialect => m.runExtensions o dialect
  | .formatWith format first last => print (Text.of (Format.Request.extend format first last))
  | .text source => m.runText source
  | .title source => m.runTitle source

-- A run that ends before there is a command to run.
def refuse (w : Log.Writer) (ending : Ending) (line : Text) : Outcome :=
  { ending
    output := ""
    console := (w.say line).console
    files := w.files
    launches := [] }

-- Logging before it is set up.
def writer : Log.Writer :=
  Log.Writer.start m.surroundings.files m.surroundings.cwd m.clock m.alarm

-- Go on with a configuration: set logging up, then the options, then run the command.
def runConfigured (s : Settings) (command : Command) (config : Entries Key Setting) : Outcome :=
  let w := m.writer.configure (levelFor s config) s.logFile (if s.trace then .traced else .plain)
  if m.writer.rejects s.logFile then refuse w (.fault .logName) []
  else
    match optionsFor s m.program config with
    | .error .timeoutTooLarge => refuse w (.fault (.options .timeoutTooLarge)) []
    | .error error =>
      refuse w (.exit .invalidSettings)
        ("Error: invalid engine configuration: " ++ error.message ++ "\n")
    | .ok o =>
      let w := w.log ⟨Log.debug, logger,
        "Running command '" ++ command.name ++ "' with " ++ o.literal⟩
      Progress.outcome ((Progress.start w).perform (m.runCommand o command))

-- The configuration of a run; none is read if it is not wanted.
def configuration (s : Settings) : Except Config.LoadError (Entries Key Setting) :=
  if s.noConfig then .ok []
  else (m.surroundings.configuration s.config m.configPath).result.map Config.Mapping.settings

def runCommandLine (s : Settings) (command : Command) : Outcome :=
  match m.configuration s with
  | .ok config => m.runConfigured s command config
  | .error error =>
    if error.isReported then
      refuse m.writer (.exit .invalidSettings) ("Error: " ++ error.message ++ "\n")
    else refuse m.writer (.fault (.config error)) []

def versionLine : String := "panbridge 1.0.0\n"

-- Run the program with its arguments.
def run (args : List String) : Outcome :=
  match parse args with
  | .ok (s, command) => m.runCommandLine s command
  | .error stop =>
    { ending := .stopped stop
      output := if stop = .version then versionLine else ""
      console := ""
      files := m.surroundings.files
      launches := [] }

end Machine

-- The exit code of an ending; faults end the program with one.
def Ending.code : Ending → Nat
  | exit e => e.code
  | stopped .misuse => 2
  | stopped _ => 0
  | fault _ => 1

end Dialect.Cli
