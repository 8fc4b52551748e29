/-
**Disks held in memory.**

A disk has files and directories below a current directory. Unlike the texts of paths, a disk
looks at every step of a path: a step up leads out of a directory that has to be there.

* `Disk`: files with their bytes, and directories;
* `Disk.find`: what there is at a path;
* `Disk.read`, `Disk.list`: the contents of a file and the names in a directory;
* `Disk.write`, `Disk.makeDirectories`: a disk with a file or some directories more.
-/

import PromptMarkup.Files.Loader

namespace PromptMarkup

/-- Files and directories by the names on the way from the current directory, last one first. -/
structure Disk where
  files : List (List String × List UInt8)
  directories : List (List String)

/-- What there is at the end of a path. -/
inductive DiskEntry where
  | directory (place : List String)
  | file (place : List String) (bytes : List UInt8)
  deriving DecidableEq, Repr

namespace Disk

/-! ## Contents -/

/-- The place of a path of which no step leads up. -/
def placeOf (path : String) : List String := (Path.segments path).foldl Path.walk []

/-- A disk with one more file. -/
def insert (disk : Disk) (place : List String) (bytes : List UInt8) : Disk :=
  { disk with files := (place, bytes) :: disk.files.filter fun file => file.1 ≠ place }

/-- The disk of some files. -/
def ofFiles (files : List (String × List UInt8)) : Disk :=
  files.foldl (fun disk file => disk.insert (placeOf file.1) file.2) ⟨[], []⟩

/-- The bytes of the file at a place. -/
def file? (disk : Disk) (place : List String) : Option (List UInt8) := disk.files.lookup place

/-- There is a directory at a place: the current one and those above it, those that have been made,
and those that files stand in. -/
def isDirectory (disk : Disk) (place : List String) : Bool :=
  place.all (· = "..") || disk.directories.any (fun made => place <:+ made)
    || disk.files.any fun file => place <:+ file.1.tail

/-! ## Paths -/

/-- The greatest number of bytes of a path. -/
def pathLimit : Nat := 4095

/-- The greatest number of bytes of a name. -/
def nameLimit : Nat := 255

/-- What is wrong with a path or a name that is above its limit. -/
def tooLong : FileFailure := .other "File name too long (os error 36)"

/-- The place that one step leads to. -/
def stepFrom (place : List String) (step : String) : List String :=
  if step = "" ∨ step = "." then place
  else if step = ".." then
    if place.all (· = "..") then ".." :: place else place.tail
  else step :: place

/-- What there is under a name in a directory. -/
def enter (disk : Disk) (place : List String) (step : String) : Except FileFailure DiskEntry :=
  let next := stepFrom place step
  if nameLimit < Text.byteLength step.toList then .error tooLong
  else if disk.isDirectory next then .ok (.directory next)
  else
    match disk.file? next with
    | some bytes => .ok (.file next bytes)
    | none => .error .notFound

/-- What there is one step further. Nothing is below a file. -/
def advance (disk : Disk) (entry : DiskEntry) (step : String) : Except FileFailure DiskEntry :=
  match entry with
  | .directory place => disk.enter place step
  | .file _ _ => .error .notDirectory

/-- What there is behind some steps. -/
def follow (disk : Disk) (steps : List String) : Except FileFailure DiskEntry :=
  steps.foldlM disk.advance (.directory [])

/-- The steps of a path from the current directory. The root is somewhere above it. A path holds no
null character, is not empty and keeps to its limit. -/
def stepsOf (path : String) : Except FileFailure (List String) :=
  if path.toList.contains '\x00' then
    .error (.other "file name contained an unexpected NUL byte")
  else if path.isEmpty then .error .notFound
  else if pathLimit < Text.byteLength path.toList then .error tooLong
  else .ok ((if Path.isAbsolute path then [".."] else []) ++ Path.segments path)

/-- What there is at a path. -/
def find (disk : Disk) (path : String) : Except FileFailure DiskEntry := do
  disk.follow (← stepsOf path)

/-! ## Reading -/

/-- The bytes of the file at a path. -/
def read (disk : Disk) : FileReader := fun path => do
  match ← disk.find path with
  | .file _ bytes => return bytes
  | .directory _ => .error .isDirectory

/-- The name on the way to a place that stands in a directory directly. -/
def nameBelow? (directory : List String) : List String → Option String
  | [] => none
  | name :: above => if above = directory then some name else nameBelow? directory above

/-- The names of what stands in the directory at a path. -/
def list (disk : Disk) (path : String) : Except FileFailure (List String) := do
  match ← disk.find path with
  | .file _ _ => .error .notDirectory
  | .directory directory =>
    let places := disk.files.map Prod.fst ++ disk.directories
    return (places.filterMap (nameBelow? directory)).eraseDups

/-! ## Writing -/

/-- The directory that the last step of a path starts from, and that step. -/
def findLast (disk : Disk) (path : String) : Except FileFailure (List String × String) := do
  let steps := ((← stepsOf path).reverse.dropWhile (· = "")).reverse
  match ← disk.follow steps.dropLast with
  | .file _ _ => .error .notDirectory
  | .directory place => return (place, steps.getLastD "")

/-- A disk with the file at a path written, in a directory that is there. -/
def write (disk : Disk) (path : String) (bytes : List UInt8) : Except FileFailure Disk := do
  let (place, name) ← disk.findLast path
  if path.endsWith "/" then .error .isDirectory
  else
    match disk.enter place name with
    | .ok (.directory _) => .error .isDirectory
    | .ok (.file found _) => return disk.insert found bytes
    | .error .notFound => return disk.insert (stepFrom place name) bytes
    | .error failure => .error failure

/-- A disk with the directory at a path made, in a directory that is there. -/
def makeDirectory (disk : Disk) (path : String) : Except FileFailure Disk := do
  let (place, name) ← disk.findLast path
  match disk.enter place name with
  | .ok _ => .error .occupied
  | .error .notFound =>
    return { disk with directories := stepFrom place name :: disk.directories }
  | .error failure => .error failure

/-- The disk, provided that there is a directory at a path already. -/
def acceptDirectory (disk : Disk) (path : String) (failure : FileFailure) :
    Except FileFailure Disk :=
  match disk.find path with
  | .ok (.directory _) => .ok disk
  | _ => .error failure

/-- A disk with the directory at a path and at most `depth` of those above it made, as far as they
are missing. -/
def makeDirectoriesWithin (disk : Disk) (path : String) : Nat → Except FileFailure Disk
  | 0 => .error .notFound
  | depth + 1 =>
    if path.isEmpty then .ok disk
    else
      match disk.makeDirectory path with
      | .ok made => .ok made
      | .error .notFound => do
        match Path.parent? path with
        | none => .error .notFound
        | some above =>
          let below ← disk.makeDirectoriesWithin above depth
          match below.makeDirectory path with
          | .ok made => return made
          | .error failure => below.acceptDirectory path failure
      | .error failure => disk.acceptDirectory path failure

/-- A disk with the directory at a path and those above it made, as far as they are missing. -/
def makeDirectories (disk : Disk) (path : String) : Except FileFailure Disk :=
  disk.makeDirectoriesWithin path ((Path.segments path).length + 1)

end Disk

end PromptMarkup
