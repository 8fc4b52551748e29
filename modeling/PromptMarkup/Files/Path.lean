/-
**Paths.**

Paths are texts with slashes between their steps. Files are looked up after `.` and `..` have been
worked out on the text alone.

* `Path.normalize`: the form under which one file always goes;
* `Path.same`: two paths with the same steps;
* `Path.join`, `Path.parent?`: a path below a directory, and the directory of a path;
* `Path.fileName?`, `Path.stem?`, `Path.extension?`: the last step of a path and its parts.
-/

import PromptMarkup.Text.Cut

namespace PromptMarkup.Path

/-! ## Steps -/

/-- The texts between the slashes of a path. -/
def segments (path : String) : List String := (Text.splitOn ['/'] path.toList).map String.ofList

/-- A path that starts at the root. -/
def isAbsolute (path : String) : Bool := path.toList.head? = some '/'

/-- What stands in front of the steps of a path. -/
def rootText (path : String) : String := if isAbsolute path then "/" else ""

/-- The steps of a path that lead anywhere: empty ones and dots do not, but a dot in front of a
relative path counts. -/
def steps (path : String) : List String :=
  match segments path with
  | [] => []
  | first :: rest =>
    (if first = "" then [] else [first]) ++ rest.filter fun step => step ≠ "" ∧ step ≠ "."

/-- Two paths start at the same place and have the same steps. -/
def same (path other : String) : Bool :=
  isAbsolute path = isAbsolute other && steps path = steps other

/-- The steps of a path, the last one first, without the empty one in front of the root. -/
def reversedSteps (path : String) : List String :=
  (if isAbsolute path then (segments path).tail else segments path).reverse

/-! ## Normal form -/

/-- One more step from a place, the names on the way to which come last one first. There is no
place above an empty way, so a step up is kept there as a name. -/
def walk (place : List String) (step : String) : List String :=
  if step = "" ∨ step = "." then place
  else if step = ".." then
    match place with
    | [] => [".."]
    | _ :: rest => rest
  else step :: place

/-- The path with `.` and `..` worked out. -/
def normalize (path : String) : String :=
  rootText path ++ "/".intercalate ((segments path).foldl walk []).reverse

/-- A path seen from a directory. -/
def join (directory path : String) : String :=
  if isAbsolute path then path
  else if directory.isEmpty || directory.endsWith "/" then directory ++ path
  else directory ++ "/" ++ path

/-! ## The last step -/

/-- The steps, the last one first, without those at the end that lead nowhere. A dot in front of a
relative path counts. -/
def dropIdle (absolute : Bool) : List String → List String
  | [] => []
  | [step] => if step = "" ∨ (absolute ∧ step = ".") then [] else [step]
  | step :: rest => if step = "" ∨ step = "." then dropIdle absolute rest else step :: rest

/-- The path without its last step; the root and the empty path have none to leave out. -/
def parent? (path : String) : Option String :=
  match dropIdle (isAbsolute path) (reversedSteps path) with
  | [] => none
  | _ :: rest =>
    some (rootText path ++ "/".intercalate (dropIdle (isAbsolute path) rest).reverse)

/-- The name that a path ends in. -/
def fileName? (path : String) : Option String :=
  match dropIdle (isAbsolute path) (reversedSteps path) with
  | [] => none
  | last :: _ => if last = ".." ∨ last = "." then none else some last

/-- The parts of a name before and behind its last dot; a dot in front does not count. -/
def splitName (name : String) : String × Option String :=
  let (extension, rest) := Text.cutWhile (· ≠ '.') name.toList.reverse
  match rest with
  | _ :: stem =>
    if stem.isEmpty then (name, none)
    else (String.ofList stem.reverse, some (String.ofList extension.reverse))
  | [] => (name, none)

/-- The name that a path ends in, without its extension. -/
def stem? (path : String) : Option String := (fileName? path).map fun name => (splitName name).1

/-- The extension of the name that a path ends in. -/
def extension? (path : String) : Option String :=
  (fileName? path).bind fun name => (splitName name).2

end PromptMarkup.Path
