namespace ManaCost.Report

/-!
# What consoles are handed

A report in plain form is handed to a console, which shows it as its terminal has it: how wide lines
are, where they are folded and what styles look like is the business of the console.  Styled text has
tags between square brackets, and so have the cells of a table.
-/

/-- Where a cell stands in its column. -/
inductive Alignment where
  | left
  | right
  | center
  deriving DecidableEq, Repr

/-- The header of a column, the place of its cells, and their style when there is one. -/
structure Column where
  header : String
  alignment : Alignment
  style? : Option String
  deriving DecidableEq, Repr

/-- A title, columns, and rows with one cell a column. -/
structure Table where
  title : String
  columns : List Column
  rows : List (List String)
  deriving DecidableEq, Repr

/-- What a console is handed. -/
inductive Content where
  /-- A line of styled text. -/
  | styled (markup : String)
  /-- A table of styled texts. -/
  | table (table : Table)
  deriving DecidableEq, Repr

/-- A console. -/
structure Console where
  /-- The text that is written for what is handed over, unless the console cannot write it. -/
  print? : Content → Option String

end ManaCost.Report
