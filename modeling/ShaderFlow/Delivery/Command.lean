/-
  ShaderFlow.Delivery.Command — what the command line does with its files.

  Settings and documents come as texts, or as the news that a file could not be read.  What
  goes wrong is told with the file it happened to.

  Main definitions:
    * `loadConfig`, `loadDocument` — settings and graphs from files;
    * `run` — the files to write for a document;
    * `parse` — the options that arguments set.
-/

import ShaderFlow.Config.Text
import ShaderFlow.Delivery.Bundle

namespace ShaderFlow.Command

/-- A file that was asked for. -/
structure Source where
  path : String
  /-- Its text, unless it could not be read. -/
  text : Except String String

/-- What went wrong. -/
inductive Failure where
  /-- There is nothing to compile. -/
  | noDocument
  /-- The settings could not be read. -/
  | readingConfig (path reason : String)
  /-- The settings are malformed. -/
  | parsingConfig (path : String) (cause : ReadError)
  /-- The settings ask for what no backend can do. -/
  | checkingConfig (path : String) (cause : ConfigFault)
  /-- The document could not be read. -/
  | readingDocument (path reason : String)
  /-- The document is not that of a graph. -/
  | loadingDocument (path : String) (cause : DocumentError)
  /-- The graph does not compile. -/
  | compiling (cause : CompileError)

namespace Failure

/-- What was being done when it went wrong. -/
def message : Failure → String
  | .noDocument => "no graph document given"
  | .readingConfig path _ => "reading config " ++ path
  | .parsingConfig path _ => "parsing config " ++ path
  | .checkingConfig path _ => "checking config " ++ path
  | .readingDocument path _ => "reading document " ++ path
  | .loadingDocument path _ => "loading document " ++ path
  | .compiling cause => cause.message

/-- Why it went wrong, if the message does not say so. -/
def cause? : Failure → Option String
  | .readingConfig _ reason => some reason
  | .parsingConfig _ cause => some cause.message
  | .checkingConfig _ cause => some cause.message
  | .readingDocument _ reason => some reason
  | .loadingDocument _ cause => some cause.message
  | .noDocument | .compiling _ => none

/-- The text that is shown for a failure. -/
def report (f : Failure) : String :=
  match f.cause? with
  | some cause => "Error: " ++ f.message ++ "\n\nCaused by:\n    " ++ cause
  | none => "Error: " ++ f.message

end Failure

/-- Settings from a file, or the defaults without one. -/
def loadConfig : Option Source → Except Failure Config
  | none => .ok {}
  | some source => do
    let text ← source.text.mapError (.readingConfig source.path)
    let config ← (Config.ofText text).mapError (.parsingConfig source.path)
    config.check.mapError (.checkingConfig source.path)
    pure config

/-- A graph from a document. -/
def loadDocument (source : Source) : Except Failure Graph := do
  let text ← source.text.mapError (.readingDocument source.path)
  return (← (Graph.ofText text {}).mapError (.loadingDocument source.path)).1

/-- Compiles a document into the files to write. -/
def run (target : Target) (config : Option Source) (document : Option Source) :
    Except Failure Bundle := do
  let config ← loadConfig config
  match document with
  | none => .error .noDocument
  | some document =>
    let g ← loadDocument document
    let (_, _, result) := (Artifact.new target).bundle g { config }
    result.mapError .compiling

/-! ## §1. Arguments -/

/-- What the command line asks for. -/
structure Options where
  document : Option String := none
  target : Target := .material
  config : Option String := none
  /-- The directory that the files are written to. -/
  out : String := "shaders"
  /-- Only print the settings. -/
  printConfig : Bool := false
deriving Repr, DecidableEq

/-- The target of the given name. -/
def target? (name : String) : Option Target :=
  [.material, .particles, .points].find? (·.name == name)

/-- The options that arguments set, or what is wrong with them. -/
def parse (o : Options) : List String → Except String Options
  | [] => .ok o
  | "--print-config" :: rest => parse { o with printConfig := true } rest
  | flag :: value :: rest =>
    if flag == "--backend" || flag == "-b" then
      match target? value with
      | some target => parse { o with target } rest
      | none => .error ("invalid value '" ++ value ++ "' for '--backend <BACKEND>'")
    else if flag == "--config" || flag == "-c" then parse { o with config := some value } rest
    else if flag == "--out" || flag == "-o" then parse { o with out := value } rest
    else if flag.startsWith "-" || o.document.isSome then
      .error ("unexpected argument '" ++ flag ++ "' found")
    else parse { o with document := some flag } (value :: rest)
  | [last] =>
    if last.startsWith "-" || o.document.isSome then
      .error ("unexpected argument '" ++ last ++ "' found")
    else .ok { o with document := some last }

end ShaderFlow.Command
