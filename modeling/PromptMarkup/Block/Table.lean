/-
**The cells of a table.**

Records are objects or arrays. The columns may be given; otherwise they are the keys of the
records in the order in which they first appear, or the cells of the first array.

* `Column`: the key and the title of a column;
* `tableCells`: the titles and the rows of a table.
-/

import PromptMarkup.Value.Basic

namespace PromptMarkup

/-- A column of a table. -/
structure Column where
  field : String
  header : String
  deriving DecidableEq, Repr

/-- The titles of the columns and the cells row by row. -/
structure TableCells where
  header : List String
  rows : List (List String)
  deriving DecidableEq, Repr

/-- The text of a value in a cell. -/
def cellText (value : Json) : String := (Value.ofJson value).stringify

/-- The text of a field, empty if it is missing. -/
def fieldText (record : Json) (field : String) : String :=
  ((record.get? field).map cellText).getD ""

/-! ## Columns -/

/-- The column that a value describes: an object with a key and maybe a title, or a name. -/
def Column.ofJson (column : Json) : Column :=
  match column with
  | .object fields =>
    let field := fieldText (.object fields) "field"
    ⟨field, ((fields.lookup "header").map cellText).getD field⟩
  | other => ⟨cellText other, cellText other⟩

/-- The columns that are given. -/
def givenColumns (columns : Option Json) : Option (List Column) :=
  (columns.bind Json.array?).map (List.map Column.ofJson)

/-- The keys of a record. -/
def recordKeys (record : Json) : List String := (record.object?.getD []).map Prod.fst

/-- The keys of some records, each where it first appears. -/
def columnsOfRecords (records : List Json) : List Column :=
  (records.flatMap recordKeys).eraseDups.map fun key => ⟨key, key⟩

/-! ## Cells -/

/-- The cells of a table of arrays. -/
def cellsOfArrays (rows : List (List Json)) (columns : Option (List Column)) : TableCells :=
  let cells := rows.map (List.map cellText)
  match columns with
  | some columns => ⟨columns.map Column.header, cells⟩
  | none => ⟨cells.headD [], cells.tail⟩

/-- The cells of a table of objects. -/
def cellsOfObjects (records : List Json) (columns : List Column) : TableCells :=
  ⟨columns.map Column.header,
    records.map fun record => columns.map fun column => fieldText record column.field⟩

/-- The cells of a table. It is a table of arrays when all records are arrays and there is one. -/
def tableCells (records : List Json) (columns : Option Json) : TableCells :=
  let columns := givenColumns columns
  match records.mapM Json.array? with
  | some (first :: rest) => cellsOfArrays (first :: rest) columns
  | _ => cellsOfObjects records (columns.getD (columnsOfRecords records))

end PromptMarkup
