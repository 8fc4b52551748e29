/-
**Runs in memory.**

A run on a disk in memory shows all that a run does: what it writes, and the disk that it leaves.

* `Session`: what the runs so far have left behind;
* `Host.memory`: a host that keeps everything in memory;
* `answerInMemory`: what a command line leaves behind, with its exit code.
-/

import PromptMarkup.CommandLine.Run
import PromptMarkup.Files.Disk

namespace PromptMarkup.CommandLine

/-- What runs have left behind. -/
structure Session where
  disk : Disk
  output : String
  errors : String

namespace Session

/-- A session with nothing written yet. -/
def start (disk : Disk) : Session := ⟨disk, "", ""⟩

/-- Changes the disk of a session, unless that fails. -/
def changeDisk (change : Disk → Except FileFailure Disk) :
    StateM Session (Except FileFailure Unit) :=
  modifyGet fun session =>
    match change session.disk with
    | .ok changed => (.ok (), { session with disk := changed })
    | .error failure => (.error failure, session)

end Session

/-- A host with an input that keeps everything in memory. -/
def Host.memory (input : List UInt8) : Host (StateM Session) where
  readInput := return .ok input
  readFile path := return (← get).disk.read path
  listDirectory path := return (← get).disk.list path
  makeDirectories path := Session.changeDisk fun disk => disk.makeDirectories path
  writeFile path text := Session.changeDisk fun disk => disk.write path (Text.encodeUtf8 text)
  writeOutput text := modify fun session => { session with output := session.output ++ text }
  writeError text := modify fun session => { session with errors := session.errors ++ text }
  compile compilation := return compilation (← get).disk.read

/-- What a command line leaves behind of a disk and an input, with its exit code. -/
def answerInMemory (disk : Disk) (input : List UInt8) (arguments : List String) :
    UInt32 × Session :=
  (answer (Host.memory input) arguments).run (Session.start disk)

end PromptMarkup.CommandLine
