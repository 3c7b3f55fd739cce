import ManaCost.Report.Console
import ManaCost.Report.Markup

namespace ManaCost.Report

/-!
# A plain console

The plain console shows no styles and folds no lines.  A table has a title in its middle, a heavy
frame around its headers and a light one around its rows.  A column is as wide as its widest cell,
with a blank on each side.  Every character is taken to be one column wide, and a title that is wider
than its table is left as it is.
-/

/-- The characters of a line of a frame: its left end, its filling, its crossings, its right end. -/
structure FrameLine where
  leftEnd : String
  filling : Char
  crossing : String
  rightEnd : String

/-- As many copies of a character. -/
def repeated
    (count : Nat)
    (character : Char) :
    String :=
  String.ofList (List.replicate count character)

/-- A text filled up with blanks to a width; of an odd number of blanks around it, one more stands
behind it. -/
def aligned
    (alignment : Alignment)
    (width : Nat)
    (text : String) :
    String :=
  let blanks := width - text.length
  match alignment with
  | .left => text ++ repeated blanks ' '
  | .right => repeated blanks ' ' ++ text
  | .center => repeated (blanks / 2) ' ' ++ text ++ repeated (blanks - blanks / 2) ' '

namespace Table

/-- The width of each column without its blanks. -/
def widths
    (table : Table) :
    List Nat :=
  let headers := table.columns.map fun column => column.header.length
  table.rows.foldl (fun widths row => List.zipWith max widths (row.map String.length)) headers

/-- A line of a frame. -/
def frame
    (widths : List Nat)
    (line : FrameLine) :
    String :=
  line.leftEnd ++
    line.crossing.intercalate (widths.map fun width => repeated (width + 2) line.filling) ++
    line.rightEnd

/-- A line of cells between walls. -/
def cells
    (table : Table)
    (wall : String)
    (texts : List String) :
    String :=
  let filled := List.zipWith
    (fun column cell => aligned column.alignment cell.1 cell.2)
    table.columns
    (table.widths.zip texts)
  wall ++ wall.intercalate (filled.map fun cell => " " ++ cell ++ " ") ++ wall

/-- The lines of a table. -/
def lines
    (table : Table) :
    List String :=
  let widths := table.widths
  let top := frame widths ⟨"┏", '━', "┳", "┓"⟩
  let headers := table.cells "┃" (table.columns.map Column.header)
  let middle := frame widths ⟨"┡", '━', "╇", "┩"⟩
  let bottom := frame widths ⟨"└", '─', "┴", "┘"⟩
  aligned .center top.length table.title :: top :: headers :: middle ::
    table.rows.map (table.cells "│") ++ [bottom]

/-- A table with its styled texts as they are seen. -/
def unstyled
    (table : Table) :
    Table where
  title := visible table.title
  columns := table.columns
  rows := table.rows.map (·.map visible)

/-- A table as text. -/
def text
    (table : Table) :
    String :=
  String.join (table.unstyled.lines.map (· ++ "\n"))

end Table

/-- The plain console. -/
def Console.plain : Console where
  print?
    | .styled markup => some (visible markup ++ "\n")
    | .table table => some table.text

end ManaCost.Report
