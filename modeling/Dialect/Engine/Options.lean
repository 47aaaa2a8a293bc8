import Dialect.Config.Literal
import Dialect.Number.Spelling

-- The settings of an engine: which program to run, how long to wait for it, and arguments
-- for every conversion.

namespace Dialect.Engine

-- The program is any value that counts as true; only a text can be run. A timeout is a
-- number that is not zero or less.
structure Options where
  program : Setting
  timeout : Option Setting.Amount
  extraArgs : List Text
deriving DecidableEq, Repr

-- Why settings are refused.
inductive OptionsError where
  -- the configuration is no mapping
  | notMapping
  -- there is no such setting
  | unknownSetting
  -- a timeout of a kind that is no number
  | timeoutKind (kind : String)
  -- a timeout that could write a number and does not
  | timeoutText (literal : String)
  -- a timeout that is out of the range of doubles
  | timeoutTooLarge
  -- a timeout that cannot be compared with zero
  | timeoutNotComparable (kind : String)
  | programEmpty
  | timeoutNotPositive (timeout : Setting.Amount)
  | argsNotList (kind : String)
  | argsNotTexts (items : List Setting)
deriving DecidableEq, Repr

namespace OptionsError

def message : OptionsError → String
  | notMapping => "the configuration must be a mapping"
  | unknownSetting => "there is no such setting"
  | timeoutKind kind => "float() argument must be a string or a real number, not '" ++ kind ++ "'"
  | timeoutText literal => "could not convert string to float: " ++ literal
  | timeoutTooLarge => "int too large to convert to float"
  | timeoutNotComparable kind =>
    "'<=' not supported between instances of '" ++ kind ++ "' and 'int'"
  | programEmpty => "pandoc_path must not be empty"
  | timeoutNotPositive timeout => "timeout must be positive, got " ++ timeout.literal
  | argsNotList kind => "extra_args must be a list of strings, got " ++ kind
  | argsNotTexts items =>
    "extra_args must contain only strings, got " ++ Setting.literal (.arr items)

end OptionsError

namespace Options

def programKey : Key := "pandoc_path"
def timeoutKey : Key := "timeout"
def argsKey : Key := "extra_args"

def settings : List Key := [programKey, timeoutKey, argsKey]

def default : Options := ⟨.str (Text.of "pandoc"), none, []⟩

def texts? : List Setting → Option (List Text)
  | [] => some []
  | .str s :: rest => (texts? rest).map (s :: ·)
  | _ :: _ => none

-- Zero or less.
def notPositive : Setting.Amount → Bool
  | .flag b => !b
  | .whole i => i ≤ 0
  | .real d => d.notPositive

-- A whole number that no double comes near to. As a timeout it cannot be counted.
def isOutOfRange : Setting.Amount → Bool
  | .whole i =>
    match Double.ofInt i with
    | .infinite _ => true
    | _ => false
  | _ => false

def checkTimeout : Setting → Except OptionsError (Option Setting.Amount)
  | .null => .ok none
  | value =>
    match value.amount? with
    | none => .error (.timeoutNotComparable value.fullKind)
    | some t => if notPositive t then .error (.timeoutNotPositive t) else .ok (some t)

-- One argument may stand for a list of one.
def checkArgs : Setting → Except OptionsError (List Text)
  | .str s => .ok [s]
  | .arr items =>
    match texts? items with
    | some args => .ok args
    | none => .error (.argsNotTexts items)
  | value => .error (.argsNotList value.kind)

-- Options from three values, which are checked in this order.
def check (program timeout args : Setting) : Except OptionsError Options := do
  if !program.truthy then throw .programEmpty
  let timeout ← checkTimeout timeout
  let extraArgs ← checkArgs args
  return { program, timeout, extraArgs }

-- The options with some settings changed. There must be no other settings among the changes.
def update (o : Options) (changes : Setting) : Except OptionsError Options :=
  match changes with
  | .obj entries =>
    if entries.any fun e => !settings.contains e.1 then .error .unknownSetting
    else
      check ((Entries.get? programKey entries).getD o.program)
        ((Entries.get? timeoutKey entries).getD
          ((o.timeout.map Setting.Amount.toSetting).getD .null))
        ((Entries.get? argsKey entries).getD (.arr (o.extraArgs.map .str)))
  | _ => .error .unknownSetting

-- A timeout from a configuration as a double.
def toDouble : Setting → Except OptionsError Double
  | .bool b => .ok (Double.ofInt (if b then 1 else 0))
  | .int i =>
    match Double.ofInt i with
    | .infinite _ => .error .timeoutTooLarge
    | d => .ok d
  | .double d => .ok d
  | .str s =>
    match s.string?.bind Spelling.double? with
    | some d => .ok d
    | none => .error (.timeoutText (Text.quoted s))
  | .other thing =>
    match thing.number? with
    | some (some d) => .ok d
    | some none => .error (.timeoutText thing.literal)
    | none => .error (.timeoutKind thing.fullKind)
  | value => .error (.timeoutKind value.kind)

-- Options from a configuration, which may hold other keys as well.
def ofConfig (config : Setting) : Except OptionsError Options :=
  match config with
  | .obj entries => do
    let timeout ← match Entries.get? timeoutKey entries with
      | none => pure Setting.null
      | some .null => pure Setting.null
      | some value => (toDouble value).map .double
    check ((Entries.get? programKey entries).getD default.program) timeout
      ((Entries.get? argsKey entries).getD (.arr []))
  | _ => .error .notMapping

-- Equal settings: numbers by amount, mappings by their bindings.
def same (a b : Options) : Bool :=
  a.program.equivalent b.program && a.extraArgs == b.extraArgs &&
    match a.timeout, b.timeout with
    | none, none => true
    | some x, some y => x.same y
    | _, _ => false

-- A sequence of arguments in round brackets; one alone has a comma.
def argsLiteral : List Text → String
  | [] => "()"
  | [a] => "(" ++ Text.quoted a ++ ",)"
  | args => "(" ++ ", ".intercalate (args.map Text.quoted) ++ ")"

def literal (o : Options) : String :=
  "EngineOptions(pandoc_path=" ++ o.program.literal ++ ", timeout=" ++
    (o.timeout.map Setting.Amount.literal).getD "None" ++ ", extra_args=" ++
    argsLiteral o.extraArgs ++ ")"

-- Updates one after the other, each on the latest options that were accepted. Answers what
-- each gave, and the options in the end.
def updates (o : Options) : List Setting → List (Except OptionsError Options) × Options
  | [] => ([], o)
  | changes :: rest =>
    let result := update o changes
    let now := match result with
      | .ok o => o
      | .error _ => o
    let (results, last) := updates now rest
    (result :: results, last)

end Options

end Dialect.Engine
