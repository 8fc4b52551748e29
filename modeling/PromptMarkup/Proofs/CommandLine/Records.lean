/-
**Records of different runs stay apart.**

A run counts on from the greatest number in the directory that its record goes to, so that no file
there has the number of its group, and none is written over. Numbers have 32 bits: behind the
greatest one of all they start again at nought, and that number may be in use.

* `numberOf?_group`: the number of a group is read off the names of its files;
* `nextNumber_cases`, `hasNumber_nextNumber`: the next number is in use exactly if the greatest one
  is and nought too;
* `outcome_writeFiles`: files are written one by one below a directory;
* `keepsRecord_outcome`: keeping a record writes its group, and changes no other file;
* `leaves_run`: a run keeps the record of what it has read and of its result;
* `TracedRun`, `keepTraces`: each of a sequence of runs keeps its record on the disk that it finds.
-/

import PromptMarkup.Proofs.CommandLine.Outcomes
import PromptMarkup.Proofs.Files.Disk

namespace PromptMarkup.CommandLine

/-! ### Numbers in names -/

section Numbers

variable {number : UInt32} {path ending : String}

theorem toList_numberText (number : UInt32) : ∃ zeros, (numberText number).toList =
    List.replicate zeros '0' ++ Nat.toDigits 10 number.toNat := by
  refine ⟨numberWidth - (toString number.toNat).length, ?_⟩
  rw [numberText, String.toList_append, String.toList_ofList, Nat.toString_eq_repr, Nat.toList_repr]

theorem isDigit_numberText (number : UInt32) :
    ∀ char ∈ (numberText number).toList, char.isDigit = true := by
  obtain ⟨zeros, digits⟩ := toList_numberText number
  intro char member
  rw [digits, List.mem_append] at member
  rcases member with zero | digit
  · rw [List.eq_of_mem_replicate zero]
    rfl
  · exact Nat.isDigit_of_mem_toDigits (by decide) (by decide) digit

theorem readDigits?_numberText (number : UInt32) :
    readDigits? (numberText number).toList = some number := by
  obtain ⟨zeros, digits⟩ := toList_numberText number
  have all : (numberText number).toList.all Char.isDigit :=
    List.all_eq_true.mpr (isDigit_numberText number)
  have nonempty : (numberText number).toList.isEmpty = false := by
    simp [digits, Nat.toDigits_ne_nil]
  have value : (numberText number).toList.foldl
      (fun value digit => value * 10 + (digit.toNat - '0'.toNat)) 0 = number.toNat := by
    have read : Nat.ofDigitChars 10 (numberText number).toList 0 = number.toNat := by
      rw [digits, Nat.ofDigitChars_append, Nat.ofDigitChars_replicate_zero, Nat.mul_zero,
        Nat.ofDigitChars_ten_toDigits]
    rw [Nat.ofDigitChars_eq_foldl] at read
    simpa only [Nat.mul_comm] using read
  rw [readDigits?, nonempty, all, value]
  simp [number.toNat_lt_size]

/-- The number of a group is read off the names of its files. -/
theorem numberOf?_group (number : UInt32) (path ending : String) :
    numberOf? (groupName number path ++ ending) = some number := by
  have front : (groupName number path ++ ending).toList.takeWhile (· ≠ '.') =
      (numberText number).toList := by
    have all : ∀ char ∈ (numberText number).toList, decide (char ≠ '.') = true := by
      intro char member
      have digit := isDigit_numberText number char member
      rw [decide_eq_true_iff]
      rintro rfl
      cases digit
    simp only [groupName, String.toList_append, List.append_assoc]
    exact (Text.takeWhile_of_all all (by simp)).1
  rw [numberOf?, front]
  split
  next digits plus =>
    have digit := isDigit_numberText number '+' (by rw [plus]; exact List.mem_cons_self)
    cases digit
  next => exact readDigits?_numberText number

/-! ### Names of groups -/

theorem not_mem_stemOf : '/' ∉ (stemOf path).toList := by
  simp only [stemOf]
  split
  next => decide
  next =>
    rw [String.toList_ofList, List.mem_map]
    rintro ⟨char, -, same⟩
    split at same
    next stays =>
      subst same
      revert stays
      decide
    next => exact absurd same (by decide)

/-- The names of the files of a group are names in their directory. -/
theorem isName_group (free : '/' ∉ ending.toList) :
    Path.IsName (groupName number path ++ ending) := by
  have starts : (groupName number path ++ ending).toList.head?.any Char.isDigit = true := by
    cases chars : (numberText number).toList with
    | nil =>
      have read := readDigits?_numberText number
      rw [chars] at read
      cases read
    | cons first rest =>
      have digit := isDigit_numberText number first (by simp [chars])
      simpa [groupName, chars] using digit
  have differs {other : String} (noDigit : ¬ other.toList.head?.any Char.isDigit) :
      groupName number path ++ ending ≠ other := fun same => noDigit (same ▸ starts)
  refine ⟨differs (by decide), differs (by decide), differs (by decide), ?_⟩
  simp only [groupName, String.toList_append, List.mem_append, not_or]
  refine ⟨⟨⟨fun member => ?_, by decide⟩, not_mem_stemOf⟩, free⟩
  exact absurd (isDigit_numberText number _ member) (by decide)

theorem join_group (directory : String) (number : UInt32) (path : String)
    (free : '/' ∉ ending.toList) :
    Path.join directory (groupName number path) ++ ending =
      Path.join directory (groupName number path ++ ending) := by
  have short : Path.IsName (groupName number path ++ "") := isName_group (by decide)
  rw [String.append_empty] at short
  rw [Path.join, Path.join, Path.isAbsolute_of_isName short,
    Path.isAbsolute_of_isName (isName_group free), if_neg Bool.false_ne_true,
    if_neg Bool.false_ne_true]
  split <;> simp only [String.append_assoc]

end Numbers

/-! ### The next number -/

/-- The greatest number. -/
def greatestNumber : UInt32 := 4294967295

theorem foldl_max (numbers : List UInt32) (start : UInt32) :
    (numbers.foldl max start = start ∨ numbers.foldl max start ∈ numbers) ∧
      start ≤ numbers.foldl max start ∧ ∀ number ∈ numbers, number ≤ numbers.foldl max start := by
  induction numbers generalizing start with
  | nil => exact ⟨.inl rfl, UInt32.le_refl start, fun _ member => nomatch member⟩
  | cons first rest ih =>
    obtain ⟨comes, above, bounds⟩ := ih (max start first)
    have larger : max start first = if start ≤ first then first else start := rfl
    rw [List.foldl_cons]
    generalize rest.foldl max (max start first) = most at comes above bounds ⊢
    clear ih
    rw [larger] at comes above
    grind

/-- **The next number** is not in use, unless the greatest one is: then it is nought. -/
theorem nextNumber_cases (names : List String) :
    (greatestNumber ∈ names.filterMap numberOf? ∧ nextNumber names = 0) ∨
      (greatestNumber ∉ names.filterMap numberOf? ∧
        nextNumber names ∉ names.filterMap numberOf?) := by
  unfold nextNumber
  generalize names.filterMap numberOf? = numbers
  obtain ⟨comes, -, bounds⟩ := foldl_max numbers 0
  generalize numbers.foldl max 0 = most at comes bounds ⊢
  by_cases full : most = greatestNumber
  · subst full
    exact .inl ⟨comes.resolve_left (by decide), rfl⟩
  · refine .inr ⟨fun member => full ?_, fun member => ?_⟩
    · have below := UInt32.le_iff_toNat_le.mp (bounds _ member)
      have size := most.toNat_lt
      rw [← UInt32.toNat_inj]
      simp only [greatestNumber, UInt32.reduceToNat] at below ⊢
      omega
    · have below := UInt32.le_iff_toNat_le.mp (bounds _ member)
      have size := most.toNat_lt
      have other : most.toNat ≠ greatestNumber.toNat := mt UInt32.toNat_inj.mp full
      rw [UInt32.toNat_add] at below
      simp only [greatestNumber, UInt32.reduceToNat] at below other
      omega

/-! ### Groups of files -/

/-- A disk with some files more in one directory, the names of which have something in common. -/
def insertGroup (disk : Disk) (place : List String) (group : String)
    (files : List (String × String)) : Disk :=
  files.foldl (fun disk file => disk.insert ((group ++ file.1) :: place) (Text.encodeUtf8 file.2))
    disk

section Groups

variable {disk : Disk} {place other : List String} {group directory path : String}
  {files : List (String × String)}

theorem file?_insertGroup_of_ne (apart : ∀ file ∈ files, other ≠ (group ++ file.1) :: place) :
    (insertGroup disk place group files).file? other = disk.file? other := by
  unfold insertGroup
  induction files generalizing disk with
  | nil => rfl
  | cons first rest ih =>
    obtain ⟨here, later⟩ := List.forall_mem_cons.mp apart
    rw [List.foldl_cons, ih later, Disk.file?_insert, if_neg here]

/-- Each file of a group is there, as long as their endings differ. -/
theorem file?_insertGroup (apart : (files.map Prod.fst).Nodup) {file : String × String}
    (member : file ∈ files) :
    (insertGroup disk place group files).file? ((group ++ file.1) :: place) =
      some (Text.encodeUtf8 file.2) := by
  induction files generalizing disk with
  | nil => cases member
  | cons first rest ih =>
    obtain ⟨fresh, others⟩ := List.nodup_cons.mp apart
    rcases List.mem_cons.mp member with rfl | later
    · have different : ∀ next ∈ rest, (group ++ file.1) :: place ≠ (group ++ next.1) :: place := by
        intro next inside same
        have names : group ++ file.1 = group ++ next.1 := (List.cons.inj same).1
        rw [String.append_right_inj] at names
        exact fresh (names ▸ List.mem_map_of_mem inside)
      exact (file?_insertGroup_of_ne different).trans (by rw [Disk.file?_insert, if_pos rfl])
    · exact ih others later

/-- Writes the files of a group. -/
def writeFiles (input : List UInt8) (group : String) (files : List (String × String)) :
    RunStep (StateM Session) Unit :=
  files.forM fun (ending, contents) =>
    attempt (.traceNotWritten (group ++ ending))
      ((Host.memory input).writeFile (group ++ ending) contents)

/-- **Files are written one by one** below a directory, until one of them fails. -/
theorem outcome_writeFiles (input : List UInt8) (number : UInt32) (path : String)
    (session : Session)
    (there : session.disk.find directory = .ok (.directory place))
    (free : ∀ file ∈ files, '/' ∉ file.1.toList) :
    ∃ result written, written <+: files ∧ (result = .ok () → written = files) ∧
      outcome (writeFiles input (Path.join directory (groupName number path)) files) session =
        (result, { session with
          disk := insertGroup session.disk place (groupName number path) written }) := by
  induction files generalizing session with
  | nil => exact ⟨.ok (), [], List.prefix_rfl, fun _ => rfl, rfl⟩
  | cons first rest ih =>
    obtain ⟨ending, contents⟩ := first
    obtain ⟨here, later⟩ := List.forall_mem_cons.mp free
    have joined := join_group directory number path here
    rw [writeFiles, List.forM, outcome_bind, outcome_writeFile]
    cases wrote : session.disk.write (Path.join directory (groupName number path) ++ ending)
        (Text.encodeUtf8 contents) with
    | error failure =>
      exact ⟨.error _, [], List.nil_prefix, (fun done => nomatch done), rfl⟩
    | ok after =>
      rw [joined] at wrote
      obtain rfl := Disk.write_join there (isName_group here) wrote
      obtain ⟨result, written, front, whole, rest⟩ := ih { session with disk := _ }
        (Disk.find_insert there _ (Text.encodeUtf8 contents)) later
      exact ⟨result, (ending, contents) :: written, List.cons_prefix_cons.mpr ⟨rfl, front⟩,
        fun done => congrArg _ (whole done), rest⟩

end Groups

/-! ### What a record leaves on the disk -/

/-- The directory at a path, which is made if it is missing, stands at a place and has some names
in it. -/
def Opens (disk : Disk) (directory : String) (place names : List String) : Prop :=
  ∃ made, disk.makeDirectories directory = .ok made ∧
    made.find directory = .ok (.directory place) ∧ made.list directory = .ok names

/-- A file in a directory has a number. -/
def HasNumber (disk : Disk) (place : List String) (number : UInt32) : Prop :=
  ∃ name bytes, disk.file? (name :: place) = some bytes ∧ numberOf? name = some number

/-- Counting on in a directory leads to no number that is left: the greatest one is in use there, and
so is nought, which comes behind it. -/
def IsUsedUp (disk : Disk) (directory : String) : Prop :=
  ∃ place names, Opens disk directory place names ∧
    greatestNumber ∈ names.filterMap numberOf? ∧ HasNumber disk place 0

/-- All files of a group are there. -/
def HoldsGroup (disk : Disk) (place : List String) (number : UInt32) (record : RunRecord) : Prop :=
  ∀ file ∈ record.files, disk.file? ((groupName number record.path ++ file.1) :: place) =
    some (Text.encodeUtf8 file.2)

/-- What keeping a record leaves of a disk. Where it is complete, its group of files is there under
the next number, which no file in the directory has had unless there are no numbers left. And unless
there are none left, every file is as it has been, even where the record is not complete. -/
structure KeepsRecord (wanted : RunRecord → Prop) (disk : Disk) (directory : String) (kept : Disk)
    (complete : Prop) : Prop where
  recorded : complete → ∃ record place names, wanted record ∧ Opens disk directory place names ∧
    HoldsGroup kept place (nextNumber names) record ∧
      (¬ HasNumber disk place (nextNumber names) ↔ ¬ IsUsedUp disk directory)
  unchanged : ¬ IsUsedUp disk directory → kept.Extends disk

section Records

variable {disk kept : Disk} {directory path : String} {place names : List String}
  {complete : Prop} {record : RunRecord} {wanted : RunRecord → Prop}

/-- The endings of the files of a group. -/
def fileEndings : List String :=
  [".poml", ".context.json", ".stylesheet.json", ".result.json", ".result.txt"]

theorem sublist_fileEndings (record : RunRecord) :
    (record.files.map Prod.fst).Sublist fileEndings := by
  unfold RunRecord.files fileEndings
  cases record.stylesheet <;> cases record.resultIsJson <;> simp

theorem slash_not_mem_ending (record : RunRecord) : ∀ file ∈ record.files, '/' ∉ file.1.toList := by
  have free : ∀ ending ∈ fileEndings, '/' ∉ ending.toList := by decide
  exact fun file member =>
    free _ ((sublist_fileEndings record).subset (List.mem_map_of_mem member))

theorem file?_of_files (same : kept.files = disk.files) (place : List String) :
    kept.file? place = disk.file? place := by
  rw [Disk.file?, Disk.file?, same]

/-- **The next number is in use** in a directory only if it is used up, and then it is. -/
theorem hasNumber_nextNumber (opens : Opens disk directory place names) :
    HasNumber disk place (nextNumber names) ↔ IsUsedUp disk directory := by
  have ⟨made, makes, found, listed⟩ := opens
  have same := file?_of_files (Disk.files_makeDirectories makes)
  constructor
  · rintro ⟨name, bytes, held, number⟩
    have member : nextNumber names ∈ names.filterMap numberOf? :=
      List.mem_filterMap.mpr ⟨name, Disk.mem_list found listed ((same _).trans held), number⟩
    rcases nextNumber_cases names with ⟨full, nought⟩ | ⟨-, fresh⟩
    · exact ⟨place, names, opens, full, name, bytes, held, number.trans (congrArg some nought)⟩
    · exact absurd member fresh
  · rintro ⟨otherPlace, otherNames, ⟨other, otherMakes, otherFound, otherListed⟩, full, nought⟩
    obtain rfl : other = made := Except.ok.inj (otherMakes.symm.trans makes)
    obtain rfl : otherNames = names := Except.ok.inj (otherListed.symm.trans listed)
    obtain rfl : otherPlace = place :=
      DiskEntry.directory.inj (Except.ok.inj (otherFound.symm.trans found))
    rcases nextNumber_cases otherNames with ⟨-, next⟩ | ⟨notFull, -⟩
    · rwa [next]
    · exact absurd full notFull

/-- A disk without a complete record and with the same files. -/
theorem KeepsRecord.of_files (same : kept.files = disk.files) (broken : ¬ complete) :
    KeepsRecord wanted disk directory kept complete where
  recorded done := absurd done broken
  unchanged _ place _ held := (file?_of_files same place).trans held

theorem holdsGroup_insertGroup (disk : Disk) (place : List String) (number : UInt32)
    (record : RunRecord) :
    HoldsGroup (insertGroup disk place (groupName number record.path) record.files) place number
      record := fun _ member =>
  file?_insertGroup ((sublist_fileEndings record).nodup (by decide)) member

/-- The files of a group, as far as they are written, leave the others as they are. -/
theorem extends_insertGroup {made : Disk} {number : UInt32} {written : List (String × String)}
    (same : made.files = disk.files) (fresh : ¬ HasNumber disk place number) :
    (insertGroup made place (groupName number path) written).Extends disk := by
  intro other bytes held
  have apart : ∀ file ∈ written, other ≠ (groupName number path ++ file.1) :: place := by
    rintro file - rfl
    exact fresh ⟨_, bytes, held, numberOf?_group number path file.1⟩
  rw [file?_insertGroup_of_ne apart, file?_of_files same, held]

/-- **Keeping a record** writes its group under the next number. -/
theorem keepsRecord_outcome (wants : wanted record) {input : List UInt8}
    {session after : Session} {result : Except RunError Unit}
    (ends : outcome (keepRecord (Host.memory input) directory record) session = (result, after)) :
    KeepsRecord wanted session.disk directory after.disk (result = .ok ()) := by
  rw [keepRecord, outcome_bind, outcome_makeDirectories] at ends
  cases makes : session.disk.makeDirectories directory with
  | error failure =>
    rw [makes] at ends
    obtain ⟨rfl, rfl⟩ := Prod.mk.inj ends
    exact .of_files rfl (fun done => nomatch done)
  | ok made =>
    have same := Disk.files_makeDirectories makes
    simp only [makes, outcome_bind, outcome_listDirectory] at ends
    cases listed : made.list directory with
    | error failure =>
      simp only [listed, orBreak] at ends
      obtain ⟨rfl, rfl⟩ := Prod.mk.inj ends
      exact .of_files same (fun done => nomatch done)
    | ok names =>
      simp only [listed, orBreak] at ends
      obtain ⟨place, found⟩ := Disk.find_of_list listed
      have opens : Opens session.disk directory place names := ⟨made, makes, found, listed⟩
      obtain ⟨answer, written, -, whole, writes⟩ :=
        outcome_writeFiles input (nextNumber names) record.path
          { session with disk := made } found (slash_not_mem_ending record)
      obtain ⟨rfl, rfl⟩ := Prod.mk.inj (writes.symm.trans ends)
      constructor
      case recorded =>
        intro done
        have holds := holdsGroup_insertGroup made place (nextNumber names) record
        rw [← whole done] at holds
        exact ⟨record, place, names, wants, opens, holds, not_congr (hasNumber_nextNumber opens)⟩
      case unchanged =>
        exact fun left => extends_insertGroup same (mt (hasNumber_nextNumber opens).mp left)

end Records

/-! ### Runs -/

/-- What is written behind a record: the result, where it goes to a file. -/
def Emits (output : Option String) (kept after : Disk) : Prop :=
  after = kept ∨ ∃ path text, output = some path ∧
    kept.write path (Text.encodeUtf8 text) = .ok after

/-- What a run leaves of a disk: what keeping its record leaves, and then its result. -/
def LeavesTrace (wanted : RunRecord → Prop) (disk : Disk) (invocation : Invocation)
    (directory : String) (after : Disk) (complete : Prop) : Prop :=
  ∃ kept, KeepsRecord wanted disk directory kept complete ∧ Emits invocation.output kept after

/-- A record holds what a run has read, and its result. -/
structure IsRecordOf (input : List UInt8) (invocation : Invocation) (session : Session)
    (sheet : Stylesheet) (record : RunRecord) : Prop where
  path : record.path = invocation.file.getD inputStem
  context : outcome (readContext (Host.memory input) invocation.context) session =
    (.ok record.context, session)
  stylesheet : outcome (readStylesheet (Host.memory input) invocation.stylesheet) session =
    (.ok (sheet, record.stylesheet), session)
  source : outcome (readDocument (Host.memory input) invocation.file) session =
    (.ok record.source, session)
  result : resultOf invocation ((Prompt.ofSource
    (optionsFor invocation.file sheet session.disk.read) record.source).compile
      (.ofJson record.context)) = .ok (record.result, record.resultIsJson)

section Runs

variable {input : List UInt8} {invocation : Invocation} {directory : String}
  {wanted : RunRecord → Prop} {session : Session}

theorem emits_outcome (input : List UInt8) (path : Option String) (text : String)
    (session : Session) :
    Emits path session.disk (outcome (emit (Host.memory input) path text) session).2.disk := by
  cases path with
  | none => exact .inl rfl
  | some path =>
    rw [emit, outcome_writeFile]
    cases written : session.disk.write path (Text.encodeUtf8 text) with
    | error failure => exact .inl rfl
    | ok after => exact .inr ⟨path, text, rfl, written⟩

/-- What a step leaves, with a complete record unless it breaks off. -/
def Leaves {α : Type} (wanted : RunRecord → Prop) (invocation : Invocation) (directory : String)
    (step : RunStep (StateM Session) α) (session : Session) : Prop :=
  ∀ result after, outcome step session = (result, after) →
    LeavesTrace wanted session.disk invocation directory after.disk (∃ value, result = .ok value)

section Bind

variable {α β : Type} {step : RunStep (StateM Session) α} {next : α → RunStep (StateM Session) β}

/-- A step that leaves the disk as it is may come before the others. -/
theorem Leaves.bind (spares : Keeps Session.disk step)
    (later : ∀ value middle, outcome step session = (.ok value, middle) →
      Leaves wanted invocation directory (next value) middle) :
    Leaves wanted invocation directory (step >>= next) session := by
  intro result after ends
  have first := spares session
  rw [outcome_bind] at ends
  cases given : outcome step session with
  | mk value middle =>
    rw [given] at first ends
    cases value with
    | error error =>
      obtain ⟨rfl, rfl⟩ := Prod.mk.inj ends
      exact ⟨middle.disk, .of_files (congrArg Disk.files first) (fun ⟨_, done⟩ => nomatch done),
        .inl rfl⟩
    | ok value =>
      have rest := later value middle given result after ends
      rwa [first] at rest

/-- A step that leaves everything as it is may come before the others. -/
theorem Leaves.bind_reads (reads : Keeps id step)
    (later : ∀ value, outcome step session = (.ok value, session) →
      Leaves wanted invocation directory (next value) session) :
    Leaves wanted invocation directory (step >>= next) session := by
  refine .bind (fun start => congrArg Session.disk (reads start)) fun value middle given => ?_
  have same : middle = session := by simpa [given] using reads session
  subst same
  exact later value given

end Bind

/-- The record is kept, and then the result is written. -/
theorem leaves_keepRecord {record : RunRecord} (wants : wanted record) (text : String)
    (sound : Bool) (session : Session) :
    Leaves wanted invocation directory (do
      keepRecord (Host.memory input) directory record
      emit (Host.memory input) invocation.output text
      return sound) session := by
  intro result after ends
  rw [outcome_bind] at ends
  cases given : outcome (keepRecord (Host.memory input) directory record) session with
  | mk value middle =>
    have keeps := keepsRecord_outcome wants given
    rw [given] at ends
    cases value with
    | error error =>
      obtain ⟨rfl, rfl⟩ := Prod.mk.inj ends
      exact ⟨middle.disk, ⟨(fun ⟨_, done⟩ => nomatch done), keeps.unchanged⟩, .inl rfl⟩
    | ok value =>
      have emits := emits_outcome input invocation.output text middle
      simp only [outcome_bind] at ends
      cases emitted : outcome (emit (Host.memory input) invocation.output text) middle with
      | mk value last =>
        rw [emitted] at ends emits
        obtain rfl : last = after := by cases value <;> exact (Prod.mk.inj ends).2
        exact ⟨middle.disk, ⟨fun _ => keeps.recorded rfl, keeps.unchanged⟩, emits⟩

/-- **A run keeps the record of what it has read and of its result**, unless it breaks off. -/
theorem leaves_run (traces : invocation.traceDirectory = some directory) (session : Session) :
    Leaves (fun record => ∃ sheet, IsRecordOf input invocation session sheet record) invocation
      directory (run (Host.memory input) invocation) session := by
  unfold run
  simp only [traces]
  refine .bind_reads (keeps_readContext _) fun context readsContext => ?_
  refine .bind_reads (keeps_readStylesheet _) fun sheet readsSheet => ?_
  refine .bind_reads (keeps_readDocument _) fun source readsSource => ?_
  refine .bind_reads (fun _ => rfl) fun compilation compiles => ?_
  refine .bind (.forM fun _ _ => rfl) fun _ middle _ => ?_
  refine .bind_reads (fun _ => rfl) fun result gives => ?_
  have compiled : (Prompt.ofSource (optionsFor invocation.file sheet.1 session.disk.read)
      source).compile (.ofJson context) = compilation := Except.ok.inj (Prod.mk.inj compiles).1
  have given : resultOf invocation compilation = .ok result := (Prod.mk.inj gives).1
  exact leaves_keepRecord
    ⟨sheet.1, rfl, readsContext, readsSheet, readsSource, compiled ▸ given⟩ _ _ middle

end Runs

/-! ### Sequences of runs -/

/-- A command line that asks for a run with a directory for its record, and what is on its input. -/
structure TracedRun where
  input : List UInt8
  arguments : List String
  invocation : Invocation
  directory : String
  reads : Request.read arguments = .ok (.run invocation)
  traces : invocation.traceDirectory = some directory

namespace TracedRun

/-- The exit code of a run on a disk. -/
def code (run : TracedRun) (disk : Disk) : UInt32 := (answerInMemory disk run.input run.arguments).1

/-- The disk that a run leaves behind. -/
def after (run : TracedRun) (disk : Disk) : Disk :=
  (answerInMemory disk run.input run.arguments).2.disk

/-- A run ends as its steps do; it breaks off if one of them does. -/
theorem answerInMemory_eq (run : TracedRun) (disk : Disk) {result : Except RunError Bool}
    {session : Session} (ends : outcome (CommandLine.run (Host.memory run.input) run.invocation)
      (Session.start disk) = (result, session)) :
    run.after disk = session.disk ∧ (run.code disk ≠ breakCode → ∃ sound, result = .ok sound) := by
  unfold outcome at ends
  unfold after code answerInMemory answer
  rw [run.reads]
  simp only [StateT.run_bind, ends]
  cases result with
  | error error => exact ⟨rfl, fun broken => absurd rfl broken⟩
  | ok sound => cases sound <;> exact ⟨rfl, fun _ => ⟨_, rfl⟩⟩

/-- What a run leaves of the disk that it finds: the record of what it has read there and of its
result, which is complete unless it breaks off. -/
def KeepsTrace (run : TracedRun) (disk : Disk) : Prop :=
  LeavesTrace (fun record => ∃ sheet,
      IsRecordOf run.input run.invocation (Session.start disk) sheet record)
    disk run.invocation run.directory (run.after disk) (run.code disk ≠ breakCode)

theorem keepsTrace (run : TracedRun) (disk : Disk) : run.KeepsTrace disk := by
  cases ends : outcome (CommandLine.run (Host.memory run.input) run.invocation)
      (Session.start disk) with
  | mk result session =>
    obtain ⟨kept, keeps, emits⟩ := leaves_run run.traces _ _ _ ends
    obtain ⟨left, complete⟩ := run.answerInMemory_eq disk ends
    exact ⟨kept, ⟨fun done => keeps.recorded (complete done), keeps.unchanged⟩, left ▸ emits⟩

end TracedRun

/-- The disk that a sequence of runs leaves behind. -/
def afterAll (runs : List TracedRun) (disk : Disk) : Disk :=
  runs.foldl (fun disk run => run.after disk) disk

/-- Each of a sequence of runs finds numbers left in its directory, and writes its result to the
output. -/
def FindNumbers : List TracedRun → Disk → Prop
  | [], _ => True
  | run :: later, disk =>
    ¬ IsUsedUp disk run.directory ∧ run.invocation.output = none ∧
      FindNumbers later (run.after disk)

/-- Each of a sequence of runs keeps its record on the disk that it finds; and what it finds there
is there in the end, as long as there are numbers left. -/
def KeepTraces : List TracedRun → Disk → Prop
  | [], _ => True
  | run :: later, disk =>
    run.KeepsTrace disk ∧
      (FindNumbers (run :: later) disk → (afterAll (run :: later) disk).Extends disk) ∧
        KeepTraces later (run.after disk)

theorem TracedRun.extends_after (run : TracedRun) {disk : Disk}
    (left : ¬ IsUsedUp disk run.directory) (output : run.invocation.output = none) :
    (run.after disk).Extends disk := by
  obtain ⟨kept, keeps, same | ⟨path, text, file, -⟩⟩ := run.keepsTrace disk
  · rw [same]
    exact keeps.unchanged left
  · cases file.symm.trans output

/-- **What there is on a disk is there behind every sequence of runs**, as long as there are numbers
left. -/
theorem extends_afterAll {runs : List TracedRun} {disk : Disk} (finds : FindNumbers runs disk) :
    (afterAll runs disk).Extends disk := by
  induction runs generalizing disk with
  | nil => exact fun _ _ held => held
  | cons run later ih =>
    obtain ⟨left, output, others⟩ := finds
    exact fun place bytes held =>
      ih others place bytes (run.extends_after left output place bytes held)

/-- **Records of different runs stay apart**: whatever is on the disk, and whichever runs come one
after the other, each one that does not break off writes the files of its record under the next
number, which no file in the directory has had unless there are no numbers left. Unless there are
none left, every file stays as it is; only the result of a run is written over the file that it is
sent to. -/
theorem keepTraces (runs : List TracedRun) (disk : Disk) : KeepTraces runs disk := by
  induction runs generalizing disk with
  | nil => trivial
  | cons run later ih => exact ⟨run.keepsTrace disk, extends_afterAll, ih (run.after disk)⟩

example :
    let once := (answerInMemory ⟨[], []⟩ [] ["--trace-dir", "t"]).2.disk
    let twice := (answerInMemory once [] ["--trace-dir", "t"]).2.disk
    once.list "t" = .ok ["0001.stdin.result.json", "0001.stdin.context.json", "0001.stdin.poml"] ∧
      twice.file? ["0001.stdin.poml", "t"] = some [] ∧
      twice.file? ["0002.stdin.poml", "t"] = some [] := by
  decide +kernel

/-- Behind the greatest number, a run writes over a file that has been there. -/
theorem overwritten_behind_greatest :
    let disk := Disk.ofFiles [("t/4294967295.x", []), ("t/0000.stdin.poml", [111])]
    let ended := answerInMemory disk [] ["--trace-dir", "t"]
    disk.file? ["0000.stdin.poml", "t"] = some [111] ∧ ended.1 = successCode ∧
      ended.2.disk.file? ["0000.stdin.poml", "t"] = some [] := by
  decide +kernel

end PromptMarkup.CommandLine
