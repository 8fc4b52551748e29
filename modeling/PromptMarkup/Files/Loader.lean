/-
**Loading files.**

Documents read other files: those they include, those they bind to names, and media. Paths are
seen from the directory of the innermost included file.

* `FileReader`: what there is at a path;
* `Loader.resolve`: the path of a file as seen from the current directory;
* `Loader.enter`, `Loader.leave`: the files being included, which are never twice the same and
  never too many;
* `Loader.readBytes`, `Loader.readText`: the contents of a file.
-/

import PromptMarkup.Files.Path
import PromptMarkup.Text.Utf8

namespace PromptMarkup

/-- Why a file system does not give the contents of a file. -/
inductive FileFailure where
  | notFound
  | isDirectory
  | notDirectory
  | occupied
  | notText
  | other (text : String)
  deriving DecidableEq, Repr

/-- The words for a failure of the file system. -/
def FileFailure.message : FileFailure → String
  | notFound => "No such file or directory (os error 2)"
  | isDirectory => "Is a directory (os error 21)"
  | notDirectory => "Not a directory (os error 20)"
  | occupied => "File exists (os error 17)"
  | notText => "stream did not contain valid UTF-8"
  | other text => text

/-- What there is at a path. Files do not change while a document is compiled, so that a file which is
read again has the contents it had before, and no copy of them is kept. -/
abbrev FileReader := String → Except FileFailure (List UInt8)

/-- The reader of files that are held in memory under normal paths. -/
def FileReader.ofTable (files : List (String × List UInt8)) : FileReader := fun path =>
  match files.lookup (Path.normalize path) with
  | some bytes => .ok bytes
  | none => .error .notFound

/-- Why a file is not loaded. -/
inductive LoadError where
  | missing (path : String)
  | failed (failure : FileFailure)
  | notUtf8 (path : String) (fault : Text.Utf8Error)
  | circular (path : String)
  | tooDeep (limit : Nat) (path : String)
  deriving DecidableEq, Repr

/-- The words for a file that is not loaded. -/
def LoadError.message : LoadError → String
  | missing path => "Include error: File not found: " ++ path
  | failed failure => "IO error: " ++ failure.message
  | notUtf8 path fault => "Include error: " ++ path ++ " is not valid UTF-8: " ++ fault.message
  | circular path => "Include error: Circular include detected: " ++ path
  | tooDeep limit path =>
    "Include error: Include depth limit of " ++ toString limit ++ " exceeded at " ++ path

/-- How files are found. The files being included stand in `including`, the innermost first. -/
structure Loader where
  read : FileReader
  baseDirectory : String
  depthLimit : Nat
  including : List String

namespace Loader

/-- The number of files that may include one another unless a limit is given. -/
def standardDepthLimit : Nat := 16

/-- The directory that paths are seen from. -/
def currentDirectory (loader : Loader) : String :=
  (loader.including.head?.bind Path.parent?).getD loader.baseDirectory

/-- The normal form of a path seen from the current directory. -/
def resolve (loader : Loader) (path : String) : String :=
  Path.normalize (Path.join loader.currentDirectory path)

/-- The bytes of a file. -/
def readBytes (loader : Loader) (path : String) : Except LoadError (List UInt8) :=
  match loader.read path with
  | .ok bytes => .ok bytes
  | .error .notFound => .error (.missing path)
  | .error failure => .error (.failed failure)

/-- The text of a file. -/
def readText (loader : Loader) (path : String) : Except LoadError String := do
  match Text.decodeUtf8 (← loader.readBytes path) with
  | .ok text => return text
  | .error fault => .error (.notUtf8 path fault)

/-- Enters a file that is included. -/
def enter (loader : Loader) (path : String) : Except LoadError Loader :=
  if loader.including.any (Path.same path) then .error (.circular path)
  else if loader.depthLimit ≤ loader.including.length then
    .error (.tooDeep loader.depthLimit path)
  else .ok { loader with including := path :: loader.including }

/-- Leaves the innermost file that is included. -/
def leave (loader : Loader) : Loader := { loader with including := loader.including.tail }

end Loader

end PromptMarkup
