/-
**What writing a file changes.**

A file that is written below a directory stands there from then on, and everything else on the disk
is as before. Directories are never lost, so that paths through them lead where they have led.

* `segments_join`: the steps of a path below a directory;
* `file?_insert`: a disk with one more file;
* `find_insert`: a path to a directory leads there still after a file has been written;
* `write_join`: what is written below a directory stands there;
* `mem_list`: a directory lists its files;
* `files_makeDirectories`: making directories leaves the files alone.
-/

import Mathlib.Data.List.Induction
import PromptMarkup.Files.Disk
import PromptMarkup.Proofs.Files.Location

namespace PromptMarkup

namespace Text

variable {sep : Char}

theorem splitOn_ne_nil (sep : Char) (chars : List Char) : splitOn [sep] chars ≠ [] := by
  cases chars with
  | nil => exact List.cons_ne_nil _ _
  | cons char rest =>
    rw [splitOn_cons]
    split
    · exact List.cons_ne_nil _ _
    · cases splitOn [sep] rest <;> exact List.cons_ne_nil _ _

theorem splitOn_append_sep (chars rest : List Char) :
    splitOn [sep] (chars ++ sep :: rest) = splitOn [sep] chars ++ splitOn [sep] rest := by
  induction chars with
  | nil =>
    rw [List.nil_append, splitOn_cons, if_pos rfl]
    rfl
  | cons char chars ih =>
    rw [List.cons_append, splitOn_cons, splitOn_cons, ih]
    split
    · rfl
    · obtain ⟨piece, pieces, same⟩ := List.exists_cons_of_ne_nil (splitOn_ne_nil sep chars)
      rw [same]
      rfl

end Text

namespace Path

variable {directory name : String}

theorem isAbsolute_of_isName (isName : IsName name) : isAbsolute name = false := by
  have free := isName.free
  unfold isAbsolute
  cases chars : name.toList with
  | nil => rfl
  | cons first rest =>
    rw [chars, List.mem_cons, not_or] at free
    simpa using Ne.symm free.1

theorem segments_of_isName (isName : IsName name) : segments name = [name] := by
  rw [segments, Text.splitOn_of_free isName.free, List.map_singleton, String.ofList_toList]

/-- **The steps of a path below a directory** are those of the directory and the name. A slash at
the end of the directory is no step of it. -/
theorem segments_join (isName : IsName name) (nonempty : directory ≠ "") :
    ∃ front, (segments directory = front ∨ segments directory = front ++ [""]) ∧
      segments (join directory name) = front ++ [name] := by
  have behind (chars : List Char) :
      (Text.splitOn ['/'] (chars ++ '/' :: name.toList)).map String.ofList =
        (Text.splitOn ['/'] chars).map String.ofList ++ [name] := by
    rw [Text.splitOn_append_sep, List.map_append]
    exact congrArg _ (segments_of_isName isName)
  rw [join, isAbsolute_of_isName isName, if_neg Bool.false_ne_true]
  split
  next ends =>
    rw [Bool.or_eq_true, String.isEmpty_iff] at ends
    have slash := ends.resolve_left nonempty
    rw [← String.endsWith_toSlice, String.Slice.endsWith_string_iff, String.copy_toSlice] at slash
    obtain ⟨chars, whole⟩ := slash
    have whole : directory.toList = chars ++ ['/'] := whole.symm
    refine ⟨(Text.splitOn ['/'] chars).map String.ofList, .inr ?_, ?_⟩
    · rw [segments, whole, Text.splitOn_append_sep, List.map_append]
      rfl
    · rw [segments, String.toList_append, whole, List.append_assoc]
      exact behind chars
  next =>
    refine ⟨segments directory, .inl rfl, ?_⟩
    rw [segments, String.toList_append, String.toList_append, List.append_assoc]
    exact behind directory.toList

theorem isAbsolute_join (isName : IsName name) (nonempty : directory ≠ "") :
    isAbsolute (join directory name) = isAbsolute directory := by
  have inside : directory.toList ≠ [] := mt String.toList_eq_nil_iff.mp nonempty
  obtain ⟨first, rest, chars⟩ := List.exists_cons_of_ne_nil inside
  rw [join, isAbsolute_of_isName isName, if_neg Bool.false_ne_true]
  split <;> simp [isAbsolute, chars]

end Path

namespace Disk

variable {disk after : Disk} {place other : List String} {bytes : List UInt8}
  {directory name path : String} {steps : List String}

/-! ### Files -/

/-- Every file of a disk is there as it has been. -/
def Extends (after disk : Disk) : Prop :=
  ∀ place bytes, disk.file? place = some bytes → after.file? place = some bytes

/-- **A disk with one more file.** -/
theorem file?_insert (disk : Disk) (place other : List String) (bytes : List UInt8) :
    (disk.insert place bytes).file? other =
      if other = place then some bytes else disk.file? other := by
  unfold file? insert
  split
  next same => rw [same, List.lookup_cons_self]
  next different =>
    rw [List.lookup_cons, beq_false_of_ne different]
    change List.lookup other (disk.files.filter _) = _
    induction disk.files with
    | nil => rfl
    | cons file rest ih =>
      obtain ⟨here, old⟩ := file
      by_cases same : here = place
      · rw [List.filter_cons_of_neg (by simpa using same), List.lookup_cons, same,
          beq_false_of_ne different]
        exact ih
      · rw [List.filter_cons_of_pos (by simpa using same), List.lookup_cons, List.lookup_cons, ih]

/-! ### Directories stay -/

theorem isDirectory_insert (there : disk.isDirectory place) (other : List String)
    (bytes : List UInt8) : (disk.insert other bytes).isDirectory place := by
  unfold isDirectory insert at *
  rw [Bool.or_eq_true, List.any_eq_true] at there ⊢
  refine there.imp_right fun ⟨file, member, below⟩ => ?_
  by_cases same : file.1 = other
  · exact ⟨(other, bytes), List.mem_cons_self, same ▸ below⟩
  · exact ⟨file, List.mem_cons_of_mem _ (List.mem_filter.mpr ⟨member, by simpa using same⟩), below⟩

theorem enter_eq_directory {step : String} :
    disk.enter place step = .ok (.directory other) ↔
      ¬ nameLimit < Text.byteLength step.toList ∧ disk.isDirectory other ∧
        other = stepFrom place step := by
  unfold enter
  grind

theorem follow_concat {step : String} :
    disk.follow (steps ++ [step]) = .ok (.directory place) ↔
      ∃ above, disk.follow steps = .ok (.directory above) ∧
        disk.enter above step = .ok (.directory place) := by
  have last : disk.follow (steps ++ [step]) =
      (disk.follow steps).bind fun entry => disk.advance entry step := by
    rw [follow, List.foldlM_append]
    exact congrArg _ (funext fun _ => bind_pure _)
  rw [last]
  cases disk.follow steps with
  | error failure => simp [Except.bind]
  | ok entry => cases entry <;> simp [Except.bind, advance]

/-- Steps that lead to a directory still do so after a file has been written. -/
theorem follow_insert (leads : disk.follow steps = .ok (.directory place)) (other : List String)
    (bytes : List UInt8) : (disk.insert other bytes).follow steps = .ok (.directory place) := by
  induction steps using List.reverseRecOn generalizing place with
  | nil => exact leads
  | append_singleton steps step ih =>
    obtain ⟨above, before, enters⟩ := follow_concat.mp leads
    obtain ⟨short, there, same⟩ := enter_eq_directory.mp enters
    have still := enter_eq_directory.mpr ⟨short, isDirectory_insert there other bytes, same⟩
    exact follow_concat.mpr ⟨above, ih before, still⟩

/-- An empty step leads nowhere. -/
theorem follow_empty (leads : disk.follow (steps ++ [""]) = .ok (.directory place)) :
    disk.follow steps = .ok (.directory place) := by
  obtain ⟨above, before, enters⟩ := follow_concat.mp leads
  obtain ⟨-, -, same⟩ := enter_eq_directory.mp enters
  rw [before, same]
  rfl

/-! ### Paths to directories -/

/-- Something comes of two steps if something comes of the first one, and of the second one then. -/
theorem bind_eq_ok {ε α β : Type} {first : Except ε α} {next : α → Except ε β} {value : β} :
    first >>= next = .ok value ↔ ∃ middle, first = .ok middle ∧ next middle = .ok value := by
  cases first <;> simp [bind, Except.bind]

theorem find_eq_ok {entry : DiskEntry} :
    disk.find path = .ok entry ↔
      ∃ steps, stepsOf path = .ok steps ∧ disk.follow steps = .ok entry := bind_eq_ok

theorem stepsOf_eq (found : stepsOf path = .ok steps) :
    path ≠ "" ∧ steps = (if Path.isAbsolute path then [".."] else []) ++ Path.segments path := by
  unfold stepsOf at found
  grind [String.isEmpty_iff]

/-- A path to a directory leads there still after a file has been written. -/
theorem find_insert (there : disk.find path = .ok (.directory place)) (other : List String)
    (bytes : List UInt8) : (disk.insert other bytes).find path = .ok (.directory place) := by
  obtain ⟨steps, known, leads⟩ := find_eq_ok.mp there
  exact find_eq_ok.mpr ⟨steps, known, follow_insert leads other bytes⟩

/-- The last step of a path below a directory starts from there. -/
theorem findLast_join (there : disk.find directory = .ok (.directory place))
    (isName : Path.IsName name) {found : List String × String}
    (last : disk.findLast (Path.join directory name) = .ok found) : found = (place, name) := by
  obtain ⟨steps, known, leads⟩ := find_eq_ok.mp there
  obtain ⟨nonempty, rfl⟩ := stepsOf_eq known
  obtain ⟨front, ends, joined⟩ := Path.segments_join isName nonempty
  obtain ⟨steps, within, last⟩ := bind_eq_ok.mp last
  obtain ⟨-, rfl⟩ := stepsOf_eq within
  have leads : disk.follow
      ((if Path.isAbsolute directory then [".."] else []) ++ front) = .ok (.directory place) := by
    rcases ends with same | same
    · rwa [same] at leads
    · rw [same, ← List.append_assoc] at leads
      exact follow_empty leads
  rw [joined, Path.isAbsolute_join isName nonempty, ← List.append_assoc] at last
  simpa [bind, Except.bind, isName.nonempty, leads, pure, Except.pure] using last.symm

/-- **What is written below a directory stands there**, and nothing else is changed. -/
theorem write_join (there : disk.find directory = .ok (.directory place))
    (isName : Path.IsName name)
    (written : disk.write (Path.join directory name) bytes = .ok after) :
    after = disk.insert (name :: place) bytes := by
  have step : stepFrom place name = name :: place := by
    simp [stepFrom, isName.nonempty, isName.noDot, isName.noDots]
  have reached {found : List String} {old : List UInt8}
      (enters : disk.enter place name = .ok (.file found old)) : found = name :: place := by
    unfold enter at enters
    grind
  obtain ⟨found, last, written⟩ := bind_eq_ok.mp written
  obtain rfl := findLast_join there isName last
  simp only [step, pure, Except.pure] at written
  grind

/-! ### Names in directories -/

theorem find_of_list {names : List String} (listed : disk.list path = .ok names) :
    ∃ place, disk.find path = .ok (.directory place) := by
  obtain ⟨entry, found, -⟩ := bind_eq_ok.mp listed
  cases entry with
  | directory place => exact ⟨place, found⟩
  | file place bytes => simp [list, found, bind, Except.bind] at listed

/-- A directory lists its files. -/
theorem mem_list {names : List String} (there : disk.find path = .ok (.directory place))
    (listed : disk.list path = .ok names) (held : disk.file? (name :: place) = some bytes) :
    name ∈ names := by
  obtain ⟨front, back, files, -⟩ := List.lookup_eq_some_iff.mp held
  have same : ((disk.files.map Prod.fst ++ disk.directories).filterMap
      (nameBelow? place)).eraseDups = names := by
    simpa [list, there, bind, Except.bind, pure, Except.pure] using listed
  rw [← same, List.mem_eraseDups, List.mem_filterMap]
  exact ⟨name :: place, by simp [files], by simp [nameBelow?]⟩

/-! ### Directories that are made -/

theorem files_makeDirectory (made : disk.makeDirectory path = .ok after) :
    after.files = disk.files := by
  obtain ⟨found, -, made⟩ := bind_eq_ok.mp made
  simp only [pure, Except.pure] at made
  grind

theorem acceptDirectory_eq {failure : FileFailure}
    (accepted : disk.acceptDirectory path failure = .ok after) : after = disk := by
  unfold acceptDirectory at accepted
  grind

theorem files_makeDirectoriesWithin {depth : Nat}
    (made : disk.makeDirectoriesWithin path depth = .ok after) : after.files = disk.files := by
  induction depth generalizing path after with
  | zero => cases made
  | succ depth ih =>
    rw [makeDirectoriesWithin] at made
    split at made
    next =>
      cases made
      rfl
    next =>
      split at made
      next first =>
        cases made
        exact files_makeDirectory first
      next =>
        split at made
        next => cases made
        next above parent =>
          obtain ⟨below, makes, made⟩ := bind_eq_ok.mp made
          split at made
          next last =>
            cases made
            exact (files_makeDirectory last).trans (ih makes)
          next =>
            rw [acceptDirectory_eq made]
            exact ih makes
      next => rw [acceptDirectory_eq made]

/-- Making directories leaves the files alone. -/
theorem files_makeDirectories (made : disk.makeDirectories path = .ok after) :
    after.files = disk.files := files_makeDirectoriesWithin made

end Disk

end PromptMarkup
