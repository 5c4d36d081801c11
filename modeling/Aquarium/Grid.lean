import Aquarium.Fault
import Aquarium.Text.Lines

/-!
# The grid

A program lives on a rectangle of cells, the *program extent*, cut from the lines of its source.
Cells outside the rectangle can be written too.  They are kept apart, as a list ordered by row
and column, because the pointer never reaches them.

Seen from the program the grid is one map from pairs of natural numbers to values:
`get column row` reads it and `set column row value` changes it in one place.
-/

namespace Aquarium

/-- A cell outside the program extent. -/
structure Outlier where
  row : Nat
  column : Nat
  value : Float
deriving DecidableEq

/-- A rectangle of cells in rows, and the written cells outside it in order of row and column. -/
structure Grid where
  width : Nat
  height : Nat
  cells : Array Float
  outliers : List Outlier
deriving DecidableEq

namespace Outlier

/-- Whether an outlier comes before a place in the order of rows and columns. -/
def precedes (o : Outlier) (row column : Nat) : Bool :=
  o.row < row || (o.row == row && o.column < column)

/-- The value at a place, and zero where nothing was written. -/
def lookup (row column : Nat) : List Outlier → Float
  | [] => Number.ofNat 0
  | o :: rest => if o.row = row ∧ o.column = column then o.value else lookup row column rest

/-- Puts a value at a place and keeps the order. -/
def put (row column : Nat) (value : Float) : List Outlier → List Outlier
  | [] => [⟨row, column, value⟩]
  | o :: rest =>
      if o.row = row ∧ o.column = column then ⟨row, column, value⟩ :: rest
      else if o.precedes row column then o :: put row column value rest
      else ⟨row, column, value⟩ :: o :: rest

end Outlier

namespace Grid

/-! ## Loading -/

/-- The character that fills up short lines. -/
def padding : Char := ' '

/-- A line as cells, filled up to the given width. -/
def rowCells (width : Nat) (line : List Char) : List Float :=
  line.map Number.ofChar ++ List.replicate (width - line.length) (Number.ofChar padding)

/-- The length of the longest line. -/
def widest (lines : List (List Char)) : Nat :=
  lines.foldl (fun w line => max w line.length) 0

/-- The grid with the given lines. -/
def ofLines (lines : List (List Char)) : Grid :=
  let width := widest lines
  { width := width
    height := lines.length
    cells := (lines.flatMap (rowCells width)).toArray
    outliers := [] }

/-- The grid of a source text. -/
def ofSource (source : String) : Grid := ofLines (Text.lines source)

/-! ## The map of cells -/

/-- Whether a place belongs to the program extent. -/
def inProgram (g : Grid) (column row : Nat) : Bool := column < g.width && row < g.height

/-- The value at a place.  Places that were never written outside the program hold zero. -/
def get (g : Grid) (column row : Nat) : Float :=
  if g.inProgram column row then (g.cells[row * g.width + column]?).getD (Number.ofNat 0)
  else Outlier.lookup row column g.outliers

/-- Changes the value at one place. -/
def set (g : Grid) (column row : Nat) (value : Float) : Grid :=
  if g.inProgram column row then
    { g with cells := g.cells.setIfInBounds (row * g.width + column) value }
  else { g with outliers := Outlier.put row column value g.outliers }

/-- The cell under a pointer at the given position, if there is one in the program extent. -/
def cell? (g : Grid) (x y : Int) : Option Float :=
  if 0 ≤ x ∧ 0 ≤ y ∧ x < g.width ∧ y < g.height then
    g.cells[y.toNat * g.width + x.toNat]?
  else none

/-- The value at a place given by two values.  A pair that names no place reads as zero. -/
def read (g : Grid) (x y : Float) : Float :=
  match Number.index? x, Number.index? y with
  | some column, some row => g.get column row
  | _, _ => Number.ofNat 0

/-- Changes the value at a place given by two values, which have to name one. -/
def write (g : Grid) (x y value : Float) : Except Fault Grid :=
  match Number.index? x, Number.index? y with
  | some column, some row => .ok (g.set column row value)
  | _, _ => .error (.outside x y)

/-- How many columns it takes to have one with the given index, or how many rows.  The count is an
index itself, so it ends at the largest of them. -/
def countTo (index : Nat) : Nat := min (index + 1) (Number.indexBound - 1)

/-- The columns and rows of the smallest box at the origin that holds the program and all
outliers. -/
def extent (g : Grid) : Nat × Nat :=
  g.outliers.foldl (fun (w, h) o => (max w (countTo o.column), max h (countTo o.row)))
    (g.width, g.height)

/-! ## Text -/

/-- How a value is drawn: as the character it names, with a blank for the null character and a
question mark for everything else. -/
def glyph (v : Float) : Char :=
  match Number.char? v with
  | some c => if c = '\x00' then padding else c
  | none => '?'

/-- The rows of the program extent as text. -/
def rows (g : Grid) : List String :=
  (List.range g.height).map fun row =>
    String.ofList ((List.range g.width).map fun column => glyph (g.get column row))

/-- An outlier as text: its column, its row and its glyph. -/
def outlierText (o : Outlier) : String :=
  Number.digitText o.column ++ "," ++ Number.digitText o.row ++ ": " ++
    String.singleton (glyph o.value)

/-- The rows of the program, then a line for every outlier. -/
def text (g : Grid) : String :=
  "\n".intercalate (g.rows ++ g.outliers.map outlierText)

end Grid

end Aquarium
