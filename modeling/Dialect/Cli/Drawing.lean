import Dialect.Format.Known
import Dialect.Format.Resolved

-- A resolved format as the library that draws on the screen gets it: a panel with what was
-- negotiated, and a table of all extensions. Tags in square brackets say how a text looks.

namespace Dialect.Cli

inductive Drawing where
  | panel (title content : String)
  -- the columns each have a head and a look
  | table (title : String) (columns : List (String × String)) (rows : List (List String))
deriving DecidableEq, Repr

namespace Drawing

def panelLines (r : Format.Resolved) : List String :=
  ["[bold]Format:[/bold] " ++ r.fullName, "[bold]Base:[/bold] " ++ r.baseName] ++
    (if r.warnings.invalidFormat = "" then []
      else ["[yellow]Unsupported format:[/yellow] " ++ r.warnings.invalidFormat]) ++
    (if r.warnings.invalidOptions.isEmpty then []
      else ["[yellow]Unsupported extensions:[/yellow] " ++
        ", ".intercalate r.warnings.invalidOptions])

def ofFormat (r : Format.Resolved) : Drawing :=
  .panel "Resolved Format" ("\n".intercalate (panelLines r))

def row (name : String) (enabled : Bool) : List String :=
  [if Format.isKnown name then name else name ++ " [yellow](new)[/yellow]",
    if enabled then "[green]enabled[/green]" else "[dim]disabled[/dim]"]

-- All extensions by name.
def ofExtensions (extensions : Entries String Bool) : Drawing :=
  let sorted := extensions.mergeSort fun a b => !decide (b.1 < a.1)
  .table "Extensions" [("Extension", "cyan"), ("Status", "magenta")]
    (sorted.map fun (name, enabled) => row name enabled)

end Drawing

end Dialect.Cli
