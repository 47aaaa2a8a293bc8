import Dialect.Cli.Run
import Dialect.Host.Picture
import Dialect.Host.Yaml
import Std.Time

-- The program itself: it takes a picture of the files that a run may look at, runs, and puts
-- down what came out.

open Dialect

namespace Dialect.Main

def usage : String :=
  "usage: panbridge [-h] [--version] [--config CONFIG] [--no-config] [--pandoc PATH]\n" ++
  "                 [--timeout SECONDS] [--log-level LEVEL] [--log-file FILE] [--trace]\n" ++
  "                 command ...\n" ++
  "commands: resolve, extensions, format-with, text, title\n"

-- The files that a run may look at: configuration around the working directory and at home,
-- what the environment names, and whatever an argument may name.
def interesting (cwd home : Path) (named args : List String) : List Path :=
  let candidates := Config.Surroundings.projectFile :: Config.fileNames
  (cwd.upwards.flatMap fun directory => candidates.map directory.child) ++
    Config.fileNames.map home.child ++
    (named ++ args ++ args.map fun a => String.ofList ((a.toList.dropWhile (· != '=')).drop 1)).map
      fun name => Path.settle cwd (Path.ofText name)

-- Add a file or a directory to the picture, with the directories that lead to it.
def picture (t : FileTree) (path : Path) : IO FileTree := do
  let here ← IO.currentDir
  let mut t := t
  for n in List.range path.parts.length do
    let above : Path := { path with parts := path.parts.take n }
    if ← (here / above.text).isDir then t := t.addDirectory above.parts
  let file := here / path.text
  if ← file.isDir then return t.addDirectory path.parts
  try
    return t.addFile path.parts (← IO.FS.readBinFile file).toList
  catch _ => return t

-- Write the files that a run changed.
def writeChanges (before after : FileTree) : IO Unit := do
  let here ← IO.currentDir
  for (place, node) in after.nodes do
    if before.node? place ≠ some node then
      if let .file bytes := node then
        IO.FS.writeBinFile (here / (Path.mk "/" place).text) ⟨bytes.toArray⟩

def clock : IO String := do
  let now ← Std.Time.PlainDateTime.now
  return now.format "uuuu-MM-dd HH:mm:ss"

-- What is said of a record that a log file does not take.
def alarm (r : Log.Record) : String :=
  "--- Logging error ---\nMessage: " ++ Text.quoted r.message ++ "\n"

def machine (args : List String) : IO Cli.Machine := do
  let cwd := Path.ofText (← IO.currentDir).toString
  let home := Path.ofText ((← IO.getEnv "HOME").getD "/")
  let configPath ← IO.getEnv "PANBRIDGE_CONFIG"
  let mut files : FileTree := ⟨[]⟩
  for path in cwd :: home :: interesting cwd home configPath.toList args do
    files ← picture files path
  let input ← if args.contains "-" then (← IO.getStdin).readBinToEnd else pure ByteArray.empty
  return {
    surroundings := { files, cwd, home, yaml := Host.Yaml.reader }
    configPath
    program := ← IO.getEnv "PANBRIDGE_PANDOC"
    input := input.toList
    programs := []
    clock := ← clock
    alarm
    draw := Host.picture? }

end Dialect.Main

def main (args : List String) : IO UInt32 := do
  let m ← Main.machine args
  let outcome := m.run args
  IO.print outcome.output
  IO.eprint outcome.console
  match outcome.ending with
  | .stopped .help => IO.print Main.usage
  | .stopped .misuse => IO.eprint Main.usage
  | _ => pure ()
  Main.writeChanges m.surroundings.files outcome.files
  return UInt32.ofNat outcome.ending.code
