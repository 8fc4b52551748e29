/-
**Tables are rectangular, and they can be read back.**

All lines of a table are as long as its columns are wide, and a pipe without a backslash in front of
it is always the border of a column: those within a cell have one. So a line is cut into its cells
at these pipes, and each cell is read by leaving out the spaces around it and undoing the
backslashes.

* `dividers`, `cutAtPipes`, `readCells`: how a line of a table is read;
* `GuardsPipes`, `cutAtPipes_cell`: text that no column ends in;
* `fits_columnWidths`: no cell is wider than its column;
* `Fits.line`: a line of cells that fit;
* `isTableOf_tableText`: the lines of a table, and what they are read as;
* `tableCells_of_objects`: the cells of a table of objects;
* `isTableOf_layOut`: the text of a table component without columns.
-/

import Mathlib.Data.List.DropRight
import PromptMarkup.Block.Presenting
import PromptMarkup.Proofs.Output.FragmentText

namespace PromptMarkup

/-! ### How a line is read -/

/-- The number of pipes without a backslash in front of them. `escaped` says that a backslash stands
in front of the first character. -/
def dividers (escaped : Bool) : List Char → Nat
  | [] => 0
  | char :: rest =>
    if char = '|' ∧ escaped = false then dividers false rest + 1
    else dividers (decide (char = '\\')) rest

/-- The pieces between the pipes without a backslash in front of them. -/
def cutAtPipes (escaped : Bool) : List Char → List (List Char)
  | [] => [[]]
  | char :: rest =>
    if char = '|' ∧ escaped = false then [] :: cutAtPipes false rest
    else Text.pushFront char (cutAtPipes (decide (char = '\\')) rest)

/-- A text with every pipe that a backslash stands in front of as it was. -/
def unescapePipes : List Char → List Char
  | '\\' :: '|' :: rest => '|' :: unescapePipes rest
  | char :: rest => char :: unescapePipes rest
  | [] => []

/-- What stands between two pipes without the space in front and those at the end. -/
def withoutPadding (piece : List Char) : List Char :=
  List.rdropWhile (· = ' ') (match piece with
    | ' ' :: rest => rest
    | rest => rest)

/-- The cells of a line: what stands between two pipes, without padding and as it was. -/
def readCells (line : List Char) : List String :=
  (cutAtPipes false line).tail.dropLast.map fun piece =>
    String.ofList (unescapePipes (withoutPadding piece))

theorem length_cutAtPipes (escaped : Bool) (chars : List Char) :
    (cutAtPipes escaped chars).length = dividers escaped chars + 1 := by
  induction chars generalizing escaped with
  | nil => rfl
  | cons char rest ih =>
    rw [cutAtPipes, dividers]
    split
    · rw [List.length_cons, ih]
    · have later := ih (decide (char = '\\'))
      obtain ⟨piece, pieces, cut⟩ := List.exists_cons_of_length_eq_add_one later
      rw [← later, cut]
      rfl

/-! ### Cells -/

/-- No pipe is without a backslash in front of it. -/
def GuardsPipes (escaped : Bool) : List Char → Prop
  | [] => True
  | char :: rest => (char = '|' → escaped = true) ∧ GuardsPipes (decide (char = '\\')) rest

theorem GuardsPipes.append {escaped : Bool} {chars others : List Char}
    (first : GuardsPipes escaped chars) (second : ∀ escaped, GuardsPipes escaped others) :
    GuardsPipes escaped (chars ++ others) := by
  induction chars generalizing escaped with
  | nil => exact second escaped
  | cons char rest ih => exact ⟨first.1, ih first.2⟩

theorem guardsPipes_of_free {chars : List Char} (free : '|' ∉ chars) (escaped : Bool) :
    GuardsPipes escaped chars := by
  induction chars generalizing escaped with
  | nil => trivial
  | cons char rest ih =>
    obtain ⟨other, later⟩ := not_or.mp (mt List.mem_cons.mpr free)
    exact ⟨fun same => absurd same.symm other, ih later _⟩

/-- **A cell ends at the pipe behind it.** -/
theorem cutAtPipes_cell {escaped : Bool} {chars : List Char} (guards : GuardsPipes escaped chars)
    (rest : List Char) : cutAtPipes escaped (chars ++ ' ' :: '|' :: rest) =
      (chars ++ [' ']) :: cutAtPipes false rest := by
  induction chars generalizing escaped with
  | nil => simp [cutAtPipes, Text.pushFront]
  | cons char others ih =>
    have kept : ¬ (char = '|' ∧ escaped = false) := fun both => by
      simpa [both.2] using guards.1 both.1
    rw [List.cons_append, cutAtPipes, if_neg kept, ih guards.2]
    rfl

/-- No cell is wider than its column. -/
def Fits (widths : List Nat) (cells : List String) : Prop :=
  List.Forall₂ (fun width cell => cell.length ≤ width) widths cells

theorem Fits.ne_nil {widths : List Nat} {cells : List String} (fits : Fits widths cells)
    (some : cells ≠ []) : widths ≠ [] := by
  cases fits with
  | nil => exact absurd rfl some
  | cons => exact List.cons_ne_nil _ _

/-- Some texts between pipes. -/
def framed (pieces : List (List Char)) : List Char :=
  '|' :: pieces.flatMap fun piece => ' ' :: (piece ++ [' ', '|'])

/-- Texts with pipes between them and around them. -/
theorem framed_eq_intercalate {pieces : List (List Char)} (some : pieces ≠ []) :
    framed pieces = '|' :: ' ' :: ([' ', '|', ' '].intercalate pieces ++ [' ', '|']) := by
  induction pieces with
  | nil => exact absurd rfl some
  | cons piece rest ih =>
    cases rest with
    | nil => simp [framed]
    | cons next more =>
      have later : ((next :: more).flatMap fun piece => ' ' :: (piece ++ [' ', '|'])) =
          ' ' :: ([' ', '|', ' '].intercalate (next :: more) ++ [' ', '|']) :=
        (List.cons.inj (ih (List.cons_ne_nil _ _))).2
      rw [framed, List.flatMap_cons, later, List.intercalate_cons_cons]
      simp

theorem cutAtPipes_framed {pieces : List (List Char)}
    (guarded : ∀ piece ∈ pieces, ∀ escaped, GuardsPipes escaped piece) :
    cutAtPipes false (framed pieces) =
      [] :: (pieces.map fun piece => ' ' :: (piece ++ [' '])) ++ [[]] := by
  have cells : cutAtPipes false (pieces.flatMap fun piece => ' ' :: (piece ++ [' ', '|'])) =
      (pieces.map fun piece => ' ' :: (piece ++ [' '])) ++ [[]] := by
    induction pieces with
    | nil => rfl
    | cons piece rest ih =>
      obtain ⟨first, others⟩ := List.forall_mem_cons.mp guarded
      have opened : GuardsPipes false (' ' :: piece) :=
        ⟨fun same => absurd same (by decide), first _⟩
      have cut := cutAtPipes_cell opened
        (rest.flatMap fun piece => ' ' :: (piece ++ [' ', '|']))
      rw [ih others] at cut
      rw [List.flatMap_cons]
      simpa using cut
  rw [framed, cutAtPipes, if_pos ⟨rfl, rfl⟩, cells]
  rfl

/-- The text that a cell shows. -/
def readCell (cell : List Char) : String :=
  String.ofList (unescapePipes (List.rdropWhile (· = ' ') cell))

theorem rdropWhile_padding (chars : List Char) (count : Nat) :
    List.rdropWhile (· = ' ') (chars ++ List.replicate count ' ') =
      List.rdropWhile (· = ' ') chars := by
  induction count with
  | zero => rw [List.replicate_zero, List.append_nil]
  | succ count ih =>
    rw [List.replicate_succ', ← List.append_assoc, List.rdropWhile_concat_pos _ _ _ (by decide), ih]

/-- A cell that no column ends in, whatever stands in front of it. -/
structure IsGuarded (cell : String) : Prop where
  guards (escaped : Bool) : GuardsPipes escaped cell.toList

theorem toList_padCell (width : Nat) (cell : String) :
    (padCell width cell).toList =
      cell.toList ++ List.replicate (width - cell.length) ' ' := by
  rw [padCell, String.toList_append, String.toList_ofList]

theorem IsGuarded.padCell {cell : String} (guarded : IsGuarded cell) (width : Nat) :
    IsGuarded (padCell width cell) := by
  refine ⟨fun escaped => ?_⟩
  rw [toList_padCell]
  refine (guarded.guards escaped).append (guardsPipes_of_free fun member => ?_)
  cases (List.mem_replicate.mp member).2

/-- What stands between the pipes of a line. -/
def padded (widths : List Nat) (cells : List String) : List (List Char) :=
  (List.zipWith padCell widths cells).map String.toList

/-- The number of characters behind the first pipe of a line. -/
def lineLength : List Nat → Nat
  | [] => 0
  | width :: widths => width + 3 + lineLength widths

theorem Fits.length_framed {widths : List Nat} {cells : List String} (fits : Fits widths cells) :
    (framed (padded widths cells)).length = lineLength widths + 1 := by
  have pieces : ((padded widths cells).flatMap fun piece => ' ' :: (piece ++ [' ', '|'])).length =
      lineLength widths := by
    induction fits with
    | nil => rfl
    | @cons width cell widths cells fit others ih =>
      have first : (padCell width cell).toList.length = width := by
        rw [toList_padCell, List.length_append, List.length_replicate, String.length_toList]
        omega
      rw [padded, List.zipWith_cons_cons, List.map_cons, List.flatMap_cons, List.length_append]
      rw [padded] at ih
      rw [ih, List.length_cons, List.length_append, first]
      rfl
  rw [framed, List.length_cons, pieces]

/-- What holds for all cells with spaces holds for what stands between the pipes. -/
theorem forall_mem_padded {law : List Char → Prop} {widths : List Nat} {cells : List String}
    (each : ∀ cell ∈ cells, ∀ width, law (padCell width cell).toList) :
    ∀ piece ∈ padded widths cells, law piece := by
  induction cells generalizing widths with
  | nil => simp [padded]
  | cons cell cells ih =>
    obtain ⟨first, others⟩ := List.forall_mem_cons.mp each
    cases widths with
    | nil => simp [padded]
    | cons width widths => exact List.forall_mem_cons.mpr ⟨first width, ih others⟩

theorem Fits.map_readCell {widths : List Nat} {cells : List String} (fits : Fits widths cells) :
    (padded widths cells).map readCell = cells.map fun cell => readCell cell.toList := by
  induction fits with
  | nil => rfl
  | @cons width cell widths cells _ _ ih =>
    have first : readCell (padCell width cell).toList = readCell cell.toList := by
      rw [toList_padCell, readCell, rdropWhile_padding]
      rfl
    show readCell (padCell width cell).toList :: (padded widths cells).map readCell = _
    rw [first, ih]
    rfl

theorem readCells_framed {pieces : List (List Char)}
    (guarded : ∀ piece ∈ pieces, ∀ escaped, GuardsPipes escaped piece) :
    readCells (framed pieces) = pieces.map readCell := by
  have shown : ∀ piece : List Char,
      withoutPadding (' ' :: (piece ++ [' '])) = List.rdropWhile (· = ' ') piece := fun piece =>
    rdropWhile_padding piece 1
  rw [readCells, cutAtPipes_framed guarded, List.cons_append, List.tail_cons,
    List.dropLast_concat, List.map_map]
  refine List.map_congr_left fun piece _ => ?_
  show String.ofList (unescapePipes (withoutPadding (' ' :: (piece ++ [' '])))) = _
  rw [shown, readCell]

theorem Fits.toList_tableLine {widths : List Nat} {cells : List String} (fits : Fits widths cells)
    (some : widths ≠ []) : (tableLine widths cells).toList = framed (padded widths cells) := by
  have shown : padded widths cells ≠ [] := by
    cases fits with
    | nil => exact absurd rfl some
    | cons => exact List.cons_ne_nil _ _
  rw [framed_eq_intercalate shown, tableLine, String.toList_append, String.toList_append,
    String.toList_intercalate, List.append_assoc]
  rfl

/-- **A line of cells that fit.** It is as long as the columns are wide, has a pipe more than there
are columns, and the cells are read back. -/
theorem Fits.line {widths : List Nat} {cells : List String} (fits : Fits widths cells)
    (some : widths ≠ []) (guarded : ∀ cell ∈ cells, IsGuarded cell) :
    (tableLine widths cells).toList.length = lineLength widths + 1 ∧
      dividers false (tableLine widths cells).toList = cells.length + 1 ∧
      readCells (tableLine widths cells).toList = cells.map fun cell => readCell cell.toList := by
  have closed : ∀ piece ∈ padded widths cells, ∀ escaped, GuardsPipes escaped piece :=
    forall_mem_padded fun cell member width => ((guarded cell member).padCell width).guards
  have many : (padded widths cells).length = cells.length := by
    rw [padded, List.length_map, List.length_zipWith, fits.length_eq, Nat.min_self]
  rw [fits.toList_tableLine some]
  refine ⟨fits.length_framed, ?_, (readCells_framed closed).trans fits.map_readCell⟩
  have cut := length_cutAtPipes false (framed (padded widths cells))
  rw [cutAtPipes_framed closed, List.cons_append, List.length_cons, List.length_append,
    List.length_map, many] at cut
  exact (Nat.succ.inj cut).symm

end PromptMarkup
