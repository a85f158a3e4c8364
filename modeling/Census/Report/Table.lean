import Census.Callable.Basic
import Census.Text.Blank
/-!
The report as a table for readers. Every column is as wide as its widest cell, so no cell is cut;
the blanks at the end of a line are left out.
-/

namespace Census.Report

structure Row (α : Type) where
  index : α
  name : α
  file : α
  line : α
  kind : α
  deriving DecidableEq, Repr

namespace Row

def map {α β : Type} (f : α → β) (r : Row α) : Row β :=
  ⟨f r.index, f r.name, f r.file, f r.line, f r.kind⟩

def zipWith {α β γ : Type} (f : α → β → γ) (r : Row α) (s : Row β) : Row γ :=
  ⟨f r.index s.index, f r.name s.name, f r.file s.file, f r.line s.line, f r.kind s.kind⟩

def toList {α : Type} (r : Row α) : List α := [r.index, r.name, r.file, r.line, r.kind]

end Row

abbrev Cells := Row (List Char)

def header : Cells :=
  Row.map String.toList ⟨"(index)", "name", "file", "line", "kind"⟩

def cells (index : Nat) (r : CallableRecord) : Cells :=
  Row.map String.toList ⟨toString index, r.name, r.file, toString r.line.toNat, r.kind.text⟩

/-- The lines of the table below its head, numbered from zero. -/
def bodyCells (records : List CallableRecord) : List Cells :=
  records.mapIdx cells

def widths (rows : List Cells) : Row Nat :=
  rows.foldl (fun w row => Row.zipWith (fun n cell => max n cell.length) w row)
    (header.map List.length)

/-- A cell with blanks up to a width. -/
def pad (width : Nat) (cell : List Char) : List Char :=
  cell ++ List.replicate (width - cell.length) ' '

def joined (separator : String) (columns : Row (List Char)) : List Char :=
  separator.toList.intercalate columns.toList

def rowLine (w : Row Nat) (row : Cells) : List Char :=
  Text.trimEnd (joined " | " (Row.zipWith pad w row))

def separatorLine (w : Row Nat) : List Char :=
  joined "-+-" (w.map fun n => List.replicate n '-')

def tableLines (records : List CallableRecord) : List (List Char) :=
  let rows := bodyCells records
  let w := widths rows
  rowLine w header :: separatorLine w :: rows.map (rowLine w)

def table (records : List CallableRecord) : String :=
  String.ofList ((tableLines records).flatMap (· ++ ['\n']))

end Census.Report
