import Dialect.Cli.Argument
import Dialect.Log.Writer
import Dialect.Number.Spelling

-- What a command line asks for: settings for the whole run, and one command.

namespace Dialect.Cli

structure Settings where
  config : Option String
  noConfig : Bool
  program : Option String
  timeout : Option Double
  level : Option Log.Level
  logFile : Option String
  trace : Bool
deriving DecidableEq, Repr

def Settings.default : Settings := ⟨none, false, none, none, none, none, false⟩

-- How a resolved format is shown.
inductive View where
  | plain
  | json
  | table
deriving DecidableEq, Repr

inductive Command where
  | resolve (request : String) (view : View)
  | extensions (dialect : String)
  | formatWith (format first last : String)
  | text (source : String)
  | title (source : String)
deriving DecidableEq, Repr

def Command.name : Command → String
  | resolve _ _ => "resolve"
  | extensions _ => "extensions"
  | formatWith _ _ _ => "format-with"
  | text _ => "text"
  | title _ => "title"

-- Why there is no command to run.
inductive Stop where
  | help
  | version
  | misuse
deriving DecidableEq, Repr

variable {φ σ : Type}

def recognise (known : Known φ σ) (args : List String) : Except Stop (List (Argument φ σ)) :=
  (argumentsOf known args).mapError fun _ => .misuse

-- What the options of a command do to what was read before them.
structure Effect (φ σ ρ : Type) where
  flag : φ → ρ → Except Stop ρ
  setting : σ → String → ρ → Except Stop ρ

namespace Effect

variable {ρ : Type}

-- Read the arguments of a command with one operand. The operand may have one mark beside
-- it; words and marks beyond that are stray, and so are options that are not known. What is
-- stray is refused in the end, after everything else had its turn.
def read (e : Effect φ σ ρ) (acc : ρ) (stray : Bool) :
    Option String → List (Argument φ σ) → Except Stop (String × ρ)
  | some operand, [] => if stray then .error .misuse else .ok (operand, acc)
  | none, [] => .error .misuse
  | none, ⟨w, .word⟩ :: ⟨_, .mark⟩ :: rest => read e acc stray (some w) rest
  | none, ⟨w, .word⟩ :: rest => read e acc stray (some w) rest
  | none, ⟨_, .mark⟩ :: ⟨w, .word⟩ :: rest => read e acc stray (some w) rest
  | operand, ⟨_, .option (.flag f) none⟩ :: rest => do
    let acc ← e.flag f acc
    read e acc stray operand rest
  | _, ⟨_, .option (.flag _) (some _)⟩ :: _ => .error .misuse
  | operand, ⟨_, .option (.setting s) (some value)⟩ :: rest => do
    let acc ← e.setting s value acc
    read e acc stray operand rest
  | operand, ⟨_, .option (.setting s) none⟩ :: ⟨value, .word⟩ :: rest => do
    let acc ← e.setting s value acc
    read e acc stray operand rest
  | _, ⟨_, .option (.setting _) none⟩ :: _ => .error .misuse
  | operand, _ :: rest => read e acc true operand rest

end Effect

-- The options of the commands.

inductive HelpFlag where
  | help
deriving DecidableEq, Repr

-- For commands with no value to set.
inductive NoSetting where
deriving DecidableEq, Repr

inductive ViewFlag where
  | help
  | json
  | table
deriving DecidableEq, Repr

inductive ToggleSetting where
  | first
  | last
deriving DecidableEq, Repr

inductive GlobalFlag where
  | help
  | version
  | noConfig
  | trace
deriving DecidableEq, Repr

inductive GlobalSetting where
  | config
  | program
  | timeout
  | level
  | logFile
deriving DecidableEq, Repr

-- One operand and no options of its own.
def readOperand (args : List String) : Except Stop String := do
  let known : Known HelpFlag NoSetting := [("-h", .flag .help), ("--help", .flag .help)]
  let effect : Effect HelpFlag NoSetting Unit :=
    { flag := fun _ _ => .error .help
      setting := fun s _ _ => nomatch s }
  let (operand, _) ← effect.read () false none (← recognise known args)
  return operand

-- The two views exclude each other.
def chooseView (view : View) (before : View) : Except Stop View :=
  if before = .plain ∨ before = view then .ok view else .error .misuse

def readResolve (args : List String) : Except Stop Command := do
  let known : Known ViewFlag NoSetting :=
    [("-h", .flag .help), ("--help", .flag .help), ("--json", .flag .json),
      ("--rich", .flag .table)]
  let effect : Effect ViewFlag NoSetting View :=
    { flag := fun f before =>
        match f with
        | .help => .error .help
        | .json => chooseView .json before
        | .table => chooseView .table before
      setting := fun s _ _ => nomatch s }
  let (request, view) ← effect.read .plain false none (← recognise known args)
  return .resolve request view

def readFormatWith (args : List String) : Except Stop Command := do
  let known : Known HelpFlag ToggleSetting :=
    [("-h", .flag .help), ("--help", .flag .help), ("--prepend", .setting .first),
      ("--append", .setting .last)]
  let effect : Effect HelpFlag ToggleSetting (String × String) :=
    { flag := fun _ _ => .error .help
      setting := fun s value (first, last) =>
        match s with
        | .first => .ok (value, last)
        | .last => .ok (first, value) }
  let (format, first, last) ← effect.read ("", "") false none (← recognise known args)
  return .formatWith format first last

-- The command of a name, from the arguments behind the name.
def readCommand (name : String) (args : List String) : Except Stop Command :=
  match name with
  | "resolve" => readResolve args
  | "extensions" => .extensions <$> readOperand args
  | "format-with" => readFormatWith args
  | "text" => .text <$> readOperand args
  | "title" => .title <$> readOperand args
  | _ => .error .misuse

def globalOptions : Known GlobalFlag GlobalSetting :=
  [("-h", .flag .help), ("--help", .flag .help), ("--version", .flag .version),
    ("--config", .setting .config), ("--no-config", .flag .noConfig),
    ("--pandoc", .setting .program), ("--timeout", .setting .timeout),
    ("--log-level", .setting .level), ("--log-file", .setting .logFile),
    ("--trace", .flag .trace)]

-- The levels that can be asked for, in any case.
def levelNames : List String := ["DEBUG", "INFO", "WARNING", "ERROR", "CRITICAL"]

namespace Settings

def raise (s : Settings) : GlobalFlag → Except Stop Settings
  | .help => .error .help
  | .version => .error .version
  | .noConfig => .ok { s with noConfig := true }
  | .trace => .ok { s with trace := true }

def assign (s : Settings) (setting : GlobalSetting) (value : String) : Except Stop Settings :=
  match setting with
  | .config => .ok { s with config := some value }
  | .program => .ok { s with program := some value }
  | .logFile => .ok { s with logFile := some value }
  | .timeout =>
    match Spelling.double? value with
    | some d => .ok { s with timeout := some d }
    | none => .error .misuse
  | .level =>
    if levelNames.contains (Text.upperName value) then
      .ok { s with level := some (Log.levelOf value) }
    else .error .misuse

-- Read the settings up to the first word, which names the command. Everything behind the
-- word belongs to the command.
def read (s : Settings) (stray : Bool) :
    List (Argument GlobalFlag GlobalSetting) → Except Stop (Settings × Command)
  | [] => .error .misuse
  | ⟨name, .word⟩ :: rest => do
    let command ← readCommand name (rest.map Argument.text)
    if stray then .error .misuse else .ok (s, command)
  | ⟨_, .mark⟩ :: _ => .error .misuse
  | ⟨_, .unknown⟩ :: rest => read s true rest
  | ⟨_, .option (.flag f) none⟩ :: rest => do
    let s ← s.raise f
    read s stray rest
  | ⟨_, .option (.flag _) (some _)⟩ :: _ => .error .misuse
  | ⟨_, .option (.setting o) (some value)⟩ :: rest => do
    let s ← s.assign o value
    read s stray rest
  | ⟨_, .option (.setting o) none⟩ :: ⟨value, .word⟩ :: rest => do
    let s ← s.assign o value
    read s stray rest
  | ⟨_, .option (.setting _) none⟩ :: _ => .error .misuse

end Settings

-- Read a whole command line.
def parse (args : List String) : Except Stop (Settings × Command) := do
  Settings.default.read false (← recognise globalOptions args)

end Dialect.Cli
