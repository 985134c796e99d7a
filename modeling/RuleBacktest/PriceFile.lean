import RuleBacktest.Backtest.Request
import RuleBacktest.Calendar.Reading
import RuleBacktest.Scalar.Binary64

/-!
# Price files

A price file holds the records of one symbol and interval as rows of cells.  The
first row names the columns; the date column is required.  Cells are parted by
commas and rows by line ends, and empty lines are no rows.  A cell that begins
with a quotation mark runs to the next single one, and what follows it up to the
next comma belongs to the cell too.

An empty cell, or one that says null, is a missing value.  The records are put
in time order, rows of the same time in the order of the file.
-/

namespace RuleBacktest
namespace PriceFile

open Calendar Text

inductive CellPhase where
  | rowStart
  | cellStart
  | plain
  | quoted
  | quoteInQuoted
  deriving DecidableEq, Repr

/-- The rows, the row at hand and the cell at hand, each with its last part
first. -/
structure CellState where
  phase : CellPhase
  cell : List Char
  row : List String
  rows : List (List String)

namespace CellState

def initial : CellState := ⟨.rowStart, [], [], []⟩

def add (s : CellState) (phase : CellPhase) (c : Char) : CellState :=
  { s with phase := phase, cell := c :: s.cell }

def endCell (s : CellState) : CellState :=
  { s with
      phase := .cellStart, cell := [],
      row := String.ofList s.cell.reverse :: s.row }

def endRow (s : CellState) : CellState :=
  let s := s.endCell
  ⟨.rowStart, [], [], s.row.reverse :: s.rows⟩

def isLineEnd (c : Char) : Bool :=
  c = '\n' || c = '\r'

def inCell (s : CellState) (c : Char) : CellState :=
  if c = ',' then s.endCell
  else if isLineEnd c then s.endRow else s.add .plain c

def step (s : CellState) (c : Char) : CellState :=
  match s.phase with
  | .rowStart =>
      if isLineEnd c then s
      else if c = '"' then { s with phase := .quoted }
      else s.inCell c
  | .cellStart => if c = '"' then { s with phase := .quoted } else s.inCell c
  | .plain => s.inCell c
  | .quoted =>
      if c = '"' then { s with phase := .quoteInQuoted } else s.add .quoted c
  | .quoteInQuoted => if c = '"' then s.add .quoted c else s.inCell c

def finish (s : CellState) : List (List String) :=
  match s.phase with
  | .rowStart => s.rows.reverse
  | _ => s.endRow.rows.reverse

end CellState

/-- The characters behind a byte order mark. -/
def withoutMark : List Char → List Char
  | c :: cs => if c.toNat = 0xFEFF then cs else c :: cs
  | [] => []

def rows (s : String) : List (List String) :=
  ((withoutMark s.toList).foldl CellState.step CellState.initial).finish

def column? (header : List String) (name : String) : Option Nat :=
  header.findIdx? fun h => sameIgnoringAsciiCase (trim h) name

def invalidDate (raw : String) (fault : ReadingFault) : Failure :=
  .database ("invalid date '" ++ raw ++ "': " ++ fault.message)

def invalidCell (name raw : String) : Failure :=
  .database
    ("invalid " ++ name ++ " value '" ++ raw ++ "': invalid float literal")

def time (raw : String) : Except Failure Moment :=
  match Moment.ofCell (trim raw) with
  | .ok t => .ok t
  | .error fault => .error (invalidDate (trim raw) fault)

/-- The value in a column that may be missing from the file or from the row. -/
def value (header row : List String) (name : String) :
    Except Failure (Option Float) :=
  match ((column? header name).bind fun i => row[i]?).map trim with
  | none => .ok none
  | some raw =>
      if raw.isEmpty || sameIgnoringAsciiCase raw "null" then .ok none
      else
        match Binary64.ofText? raw with
        | some x => .ok (some x)
        | none => .error (invalidCell name raw)

def record (header : List String) (dateColumn : Nat) (row : List String) :
    Except Failure (PriceRecord Float) := do
  let date ← match row[dateColumn]? with
    | some raw => .ok raw
    | none => .error (.database "missing date value")
  let time ← time date
  let opening ← value header row "open"
  let high ← value header row "high"
  let low ← value header row "low"
  let close ← value header row "close"
  let adjustedClose ← value header row "adj_close"
  let volume ← value header row "volume"
  .ok ⟨time, opening, high, low, close, adjustedClose, volume⟩

/-- The records of a file in the order of its rows. -/
def unsorted (content : String) : Except Failure (List (PriceRecord Float)) :=
  let rs := rows content
  let header := rs.head?.getD []
  match column? header "date" with
  | none => .error (.database "missing date column")
  | some dateColumn => rs.tail.mapM (record header dateColumn)

def records (content : String) : Except Failure (List (PriceRecord Float)) :=
  (unsorted content).map fun rs =>
    rs.mergeSort fun a b => decide (a.time ≤ b.time)

end PriceFile
end RuleBacktest
