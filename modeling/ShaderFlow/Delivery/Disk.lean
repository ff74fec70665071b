/-
  ShaderFlow.Delivery.Disk — where the files of a bundle go.

  A path is resolved part by part from the working directory, or from the root if it begins
  with a slash.  What a disk holds is kept by the locations of its files, so that a file that is
  written twice is there once.

  Main definitions:
    * `joinPath`     — the path of a name in a directory;
    * `resolve`      — the location that a path leads to;
    * `Bundle.write` — a disk once the files of a bundle are written into a directory.
-/

import ShaderFlow.Delivery.Bundle

namespace ShaderFlow

/-! ## §1. Paths -/

/-- The path of a name in a directory.  A name that begins with a slash is a path of its own. -/
def joinPath (directory name : String) : String :=
  if directory.isEmpty || name.toList.head? == some '/' then name
  else if directory.toList.getLast? == some '/' then directory ++ name
  else directory ++ "/" ++ name

/-- A location on a disk: the names that lead to it from the root. -/
abbrev Location := List String

/-- Where a part of a path leads from a location. -/
def Location.follow (p : Location) (part : List Char) : Location :=
  if part = [] ∨ part = ['.'] then p
  else if part = ['.', '.'] then p.dropLast
  else p ++ [String.ofList part]

/-- Where the parts of a path lead from a location. -/
def Location.walk (p : Location) (path : List Char) : Location :=
  (path.splitOn '/').foldl Location.follow p

/-- Where a path leads. -/
def resolve (working : Location) (path : String) : Location :=
  Location.walk (if path.toList.head? == some '/' then [] else working) path.toList

/-! ## §2. Disks -/

/-- The files of a disk: the contents by location. -/
abbrev Disk := Table Location String

/-- A disk once files are written into a directory. -/
def Disk.write (disk : Disk) (working : Location) (directory : String)
    (files : List (String × String)) : Disk :=
  files.foldl (fun disk (name, contents) =>
    disk.put (resolve working (joinPath directory name)) contents) disk

/-- A disk once a bundle is written into a directory. -/
def Bundle.write (b : Bundle) (working : Location) (directory : String) (disk : Disk) : Disk :=
  disk.write working directory b.allFiles

end ShaderFlow
