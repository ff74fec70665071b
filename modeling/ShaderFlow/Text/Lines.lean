/-
  ShaderFlow.Text.Lines — lines of a text and the white space around them.

  A text is cut at line feeds, each of which may have a carriage return in front of it; a
  text that ends with a line feed has no empty last line.  White space is that of
  `CodePoints.blank`.

  Main definitions:
    * `Text.lines`, `Text.unlines` — cutting a text into lines and joining them;
    * `Text.trim`, `Text.trimEnd`, `Text.indentOf` — the white space around a line.
-/

import ShaderFlow.Text.CodePoints

namespace ShaderFlow.Text

/-! ## §1. Lines -/

/-- Drops one carriage return at the end. -/
def dropReturn (line : List Char) : List Char :=
  if line.getLast? = some '\r' then line.dropLast else line

/-- The lines of a text, given the line read so far.  Only a line that a line feed ends
    loses its carriage return. -/
def linesFrom (current : List Char) : List Char → List (List Char)
  | [] => if current.isEmpty then [] else [current]
  | '\n' :: rest => dropReturn current :: linesFrom [] rest
  | c :: rest => linesFrom (current ++ [c]) rest

/-- The lines of a text. -/
def lines (text : String) : List String :=
  (linesFrom [] text.toList).map String.ofList

/-- Joins lines by line feeds and ends the last one, too. -/
def unlines (ls : List String) : String := String.intercalate "\n" ls ++ "\n"

/-! ## §2. White space -/

/-- White space. -/
def isBlank (c : Char) : Bool := CodePoints.blank.has c

/-- A line without the white space at its end. -/
def trimEnd (line : String) : String :=
  String.ofList (line.toList.reverse.dropWhile isBlank).reverse

/-- A line without the white space at its start. -/
def trimStart (line : String) : String := String.ofList (line.toList.dropWhile isBlank)

/-- A line without the white space around it. -/
def trim (line : String) : String := trimEnd (trimStart line)

/-- The white space at the start of a line. -/
def indentOf (line : String) : String := String.ofList (line.toList.takeWhile isBlank)

end ShaderFlow.Text
