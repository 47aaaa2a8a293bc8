import Dialect.Config.Literal
import Dialect.File.Tree
import Dialect.Token.Document

-- What can go wrong when the conversion program is asked for something.

namespace Dialect.Engine

-- The questions that an engine answers.
inductive Operation where
  | listExtensions
  | version
  | markdownToAst
  | astToMarkdown
deriving DecidableEq, Repr

def Operation.name : Operation → String
  | listExtensions => "list_extensions"
  | version => "version"
  | markdownToAst => "markdown_to_ast"
  | astToMarkdown => "ast_to_markdown"

-- The causes of a failed operation.
inductive Cause where
  -- the program could not be found
  | notFound (executable : Text) (error : OsError)
  -- it could not be started for another reason
  | notStarted (error : OsError)
  -- it did not end in time
  | timedOut (seconds : Setting.Amount)
  -- it ended with an exit code that is not zero
  | exited (code : Int) (complaint : String)
  -- what it wrote is no text
  | undecodable
  -- what it wrote is no document
  | notDocument (fault : Malformed)
  -- an engine that answers from a table refuses
  | refused (words : String) (code : Option Int)
deriving DecidableEq, Repr

structure EngineError where
  operation : Operation
  cause : Cause
deriving DecidableEq, Repr

namespace EngineError

def message (e : EngineError) : Text :=
  match e.cause with
  | .notFound executable _ =>
    "pandoc executable not found: " ++ executable ++
      ". Install pandoc or set 'pandoc_path' in the configuration."
  | .notStarted error => "Could not start pandoc: " ++ error.message
  | .timedOut seconds => "pandoc did not finish within " ++ seconds.literal ++ " seconds"
  | .exited code complaint =>
    "pandoc " ++ e.operation.name ++ " failed with exit code " ++ toString code ++ ": " ++
      complaint
  | .undecodable => "pandoc " ++ e.operation.name ++ " produced output that is not utf-8"
  | .notDocument fault => "pandoc returned an invalid AST: " ++ fault.message
  | .refused words _ => words

-- The exit code, where the program ended with one.
def code? (e : EngineError) : Option Int :=
  match e.cause with
  | .exited code _ => some code
  | .refused _ code => code
  | _ => none

-- What the program wrote on its error channel, where that is part of the error.
def complaint? (e : EngineError) : Option String :=
  match e.cause with
  | .exited _ complaint => some complaint
  | _ => none

end EngineError

end Dialect.Engine
