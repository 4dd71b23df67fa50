import BatchRun.Text.Utf8

/-!
# Rows of separated cells

**Input.**
The bytes of a text and the byte that separates cells.

**Result.**
`rows` cuts the text into rows of cells.  A line feed, a carriage return or both end a row, and
empty lines are no rows.  A cell that begins with a quotation mark may hold separators and line
ends up to the closing mark; a doubled mark stands for one, and what follows the closing mark
belongs to the cell as it is.  A byte order mark at the start is no part of the text.
-/

namespace BatchRun
namespace Input

open Text

/-- Where the reader stands inside a cell. -/
inductive CellState where
  /-- At its beginning. -/
  | start
  /-- In bytes that stand for themselves. -/
  | plain
  /-- Between quotation marks. -/
  | quoted
  /-- Behind a quotation mark that may be the closing one. -/
  | closing

/-- Whether a byte ends a row. -/
def endsRow (byte : UInt8) : Bool := byte == 10 || byte == 13

/-- Cells of a row and the bytes behind its end; `cell` and `cells` hold what was read of the
row, in reverse. -/
def rowCells (separator : UInt8) : CellState → (cell : Bytes) → (cells : List Bytes) → Bytes →
    List Bytes × Bytes
  | _, cell, cells, [] => ((cell.reverse :: cells).reverse, [])
  | .start, cell, cells, byte :: rest =>
    if byte = 34 then rowCells separator .quoted cell cells rest
    else if byte = separator then rowCells separator .start [] (cell.reverse :: cells) rest
    else if endsRow byte then ((cell.reverse :: cells).reverse, rest)
    else rowCells separator .plain (byte :: cell) cells rest
  | .plain, cell, cells, byte :: rest =>
    if byte = separator then rowCells separator .start [] (cell.reverse :: cells) rest
    else if endsRow byte then ((cell.reverse :: cells).reverse, rest)
    else rowCells separator .plain (byte :: cell) cells rest
  | .quoted, cell, cells, byte :: rest =>
    if byte = 34 then rowCells separator .closing cell cells rest
    else rowCells separator .quoted (byte :: cell) cells rest
  | .closing, cell, cells, byte :: rest =>
    if byte = 34 then rowCells separator .quoted (byte :: cell) cells rest
    else if byte = separator then rowCells separator .start [] (cell.reverse :: cells) rest
    else if endsRow byte then ((cell.reverse :: cells).reverse, rest)
    else rowCells separator .plain (byte :: cell) cells rest

/-- A row with the number of bytes that were left when the reader began to look for it. -/
structure Row where
  left : Nat
  cells : List Bytes

/-- Rows of a text.  The fuel exceeds the number of bytes. -/
def rowsLoop (separator : UInt8) : (fuel : Nat) → Bytes → List Row
  | 0, _ => []
  | fuel + 1, text =>
    match text.dropWhile endsRow with
    | [] => []
    | byte :: rest =>
      let (cells, after) := rowCells separator .start [] [] (byte :: rest)
      ⟨text.length, cells⟩ :: rowsLoop separator fuel after

/-- The text behind a byte order mark. -/
def withoutByteOrderMark : Bytes → Bytes
  | 0xEF :: 0xBB :: 0xBF :: rest => rest
  | text => text

/-- Rows of a text, the first one at its very beginning. -/
def rows (separator : UInt8) (text : Bytes) : List Row :=
  match rowsLoop separator (text.length + 1) (withoutByteOrderMark text) with
  | [] => []
  | first :: others => { first with left := text.length } :: others

end Input
end BatchRun
