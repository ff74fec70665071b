/-
  ShaderFlow.Code.Template — putting code into a template.

  A template is a text with marker lines.  The first line that is the marker but for white
  space around it gives way to the inserted lines, each behind the white space that stood in
  front of the marker; all other lines stay.
-/

import ShaderFlow.Compile.Error
import ShaderFlow.Text.Lines

namespace ShaderFlow.Template

/-- A line behind white space; an empty line stays empty. -/
def indentLine (indent line : String) : String := if line.isEmpty then "" else indent ++ line

/-- The lines of a template with those of `texts` in place of the first marker line, if there
    is one. -/
def splice (marker : String) (texts : List String) : List String → Option (List String)
  | [] => none
  | line :: rest =>
    if Text.trim line == marker then
      let indent := Text.indentOf line
      some ((texts.flatMap Text.lines).map (indentLine indent) ++ rest)
    else (splice marker texts rest).map (line :: ·)

/-- A template of a stage with texts in place of a marker. -/
def insert (stage : Stage) (marker : Marker) (texts : List String) (source : String) :
    Except CompileError String :=
  match splice marker.text texts (Text.lines source) with
  | some ls => .ok (Text.unlines ls)
  | none => .error (.template stage marker)

end ShaderFlow.Template
