/-
  ShaderFlow.Main — the command line.

  Compiles one document and writes its files into a directory, or prints the settings.
-/

import ShaderFlow.Delivery.Command
import ShaderFlow.Delivery.Disk

namespace ShaderFlow.Command

/-- Reads a file, or the reason why it cannot be read. -/
def Source.load (path : String) : IO Source := do
  try
    return { path, text := .ok (← IO.FS.readFile path) }
  catch e => return { path, text := .error (toString e) }

/-- Writes files into a directory, which is made if it is not there. -/
def writeFiles (directory : String) (files : List (String × String)) : IO Unit := do
  IO.FS.createDirAll directory
  files.forM fun (name, contents) => IO.FS.writeFile (joinPath directory name) contents

/-- Shows a failure; the exit code says that there was one. -/
def fail (text : String) : IO UInt32 := do
  IO.eprintln text
  return 1

/-- Does what the options ask for. -/
def execute (options : Options) : IO UInt32 := do
  let config ← options.config.mapM Source.load
  if options.printConfig then
    match loadConfig config with
    | .ok settings =>
      IO.println settings.text
      return 0
    | .error failure => fail failure.report
  else
    let document ← options.document.mapM Source.load
    match run options.target config document with
    | .ok bundle =>
      writeFiles options.out bundle.allFiles
      return 0
    | .error failure => fail failure.report

end ShaderFlow.Command

/-- The program. -/
def main (arguments : List String) : IO UInt32 :=
  match ShaderFlow.Command.parse {} arguments with
  | .ok options => ShaderFlow.Command.execute options
  | .error text => ShaderFlow.Command.fail ("error: " ++ text)
