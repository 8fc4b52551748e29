/-
**The program.**

The command line on the real file system and the standard streams.

* `standardHost`: the host that the operating system provides;
* `compileOnDemand`: a compilation with the files that it asks for;
* `main`: the program.
-/

import PromptMarkup.CommandLine.Run

namespace PromptMarkup.CommandLine

/-! ## Failures -/

/-- The words of the system for a failure with its number. -/
def describe (code : UInt32) (details : String) : FileFailure :=
  .other (details ++ " (os error " ++ toString code ++ ")")

/-- A failure of the file system. -/
def failureOf : IO.Error → FileFailure
  | .noFileOrDirectory _ _ _ => .notFound
  | .alreadyExists _ _ _ => .occupied
  | .inappropriateType _ 20 _ => .notDirectory
  | .inappropriateType _ 21 _ => .isDirectory
  | .inappropriateType _ code details => describe code details
  | .permissionDenied _ code details => describe code details
  | .invalidArgument _ code details => describe code details
  | .resourceExhausted _ code details => describe code details
  | .noSuchThing _ code details => describe code details
  | .otherError code details => describe code details
  | error => .other (toString error)

/-- What an action on files gives, or how it fails. -/
def guarded {α : Type} (action : IO α) : IO (Except FileFailure α) := do
  try return .ok (← action)
  catch error => return .error (failureOf error)

/-- What there is in a file. -/
def readFile (path : String) : IO (Except FileFailure (List UInt8)) :=
  guarded do return (← IO.FS.readBinFile path).toList

/-! ## Files on demand -/

/-- The reader of the files that have been looked at. -/
def readerOf (known : List (String × Except FileFailure (List UInt8))) : FileReader := fun path =>
  (known.lookup path).getD (.error .notFound)

/-- A compilation with the files that it asks for. It is repeated with one more of them as long as
it asks for one that has not been looked at. -/
partial def compileOnDemand (compilation : FileReader → Compilation)
    (known : List (String × Except FileFailure (List UInt8))) : IO Compilation := do
  let result := compilation (readerOf known)
  match result.asked.reverse.find? fun path => (known.lookup path).isNone with
  | none => return result
  | some path => compileOnDemand compilation ((path, ← readFile path) :: known)

/-- The host that the operating system provides. -/
def standardHost : Host IO where
  readInput := guarded do return (← (← IO.getStdin).readBinToEnd).toList
  readFile path := readFile path
  listDirectory path := guarded do
    return (← (← IO.FS.realPath path).readDir).toList.map fun entry => entry.fileName
  makeDirectories path := guarded (IO.FS.createDirAll path)
  writeFile path text := guarded (IO.FS.writeFile path text)
  writeOutput text := do (← IO.getStdout).putStr text
  writeError text := do (← IO.getStderr).putStr text
  compile compilation := compileOnDemand compilation []

end PromptMarkup.CommandLine

/-- The program. -/
def main (arguments : List String) : IO UInt32 :=
  PromptMarkup.CommandLine.answer PromptMarkup.CommandLine.standardHost arguments
