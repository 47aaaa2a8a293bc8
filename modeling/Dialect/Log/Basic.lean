import Dialect.Text.Code

-- Log records as data: a program part that reports something answers the record, and
-- who writes it where is decided elsewhere.

namespace Dialect.Log

-- Levels are numbers; these five have names of their own.
abbrev Level := Int

def debug : Level := 10
def info : Level := 20
def warning : Level := 30
def error : Level := 40
def critical : Level := 50

def levelName (level : Level) : String :=
  if level = critical then "CRITICAL"
  else if level = error then "ERROR"
  else if level = warning then "WARNING"
  else if level = info then "INFO"
  else if level = debug then "DEBUG"
  else if level = 0 then "NOTSET"
  else "Level " ++ toString level

-- The level that a name in capitals stands for.
def levelOfName? : String → Option Level
  | "CRITICAL" => some critical
  | "FATAL" => some critical
  | "ERROR" => some error
  | "WARN" => some warning
  | "WARNING" => some warning
  | "INFO" => some info
  | "DEBUG" => some debug
  | "NOTSET" => some 0
  | _ => none

structure Record where
  level : Level
  logger : String
  message : Text
deriving DecidableEq, Repr

end Dialect.Log
