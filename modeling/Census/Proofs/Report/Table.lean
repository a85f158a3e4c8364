import Census.Report.Table
/-!
The table of a report can be read back. Its second line gives the widths of the columns, and every other
line, cut at these widths, gives its cells with nothing but padding behind them.
-/

namespace Census.Report

variable {w : Row Nat} {row : Cells} {rows : List Cells} {records : List CallableRecord}
  {cell rest : List Char} {n k : Nat}

/-! ## Reading a table -/

inductive Column where
  | index
  | name
  | file
  | line
  | kind
  deriving DecidableEq, Repr

def Row.get {α : Type} (r : Row α) : Column → α
  | .index => r.index
  | .name => r.name
  | .file => r.file
  | .line => r.line
  | .kind => r.kind

/-- The widths that the rule below the head stands for. Every crossing in it has a stroke on either side. -/
def ruledWidths (rule : List Char) : Option (Row Nat) :=
  match (rule.splitOn '+').map List.length with
  | [index, name, file, line, kind] => some ⟨index - 1, name - 2, file - 2, line - 2, kind - 1⟩
  | _ => none

/-- The first characters of a line and what follows the bar behind them. -/
def cutColumn (width : Nat) (line : List Char) : Option (List Char × List Char) :=
  if (line.drop width).take 3 = [' ', '|', ' '] then some (line.take width, line.drop (width + 3))
  else none

def cutRow (w : Row Nat) (text : List Char) : Option Cells := do
  let (index, text) ← cutColumn w.index text
  let (name, text) ← cutColumn w.name text
  let (file, text) ← cutColumn w.file text
  let (line, text) ← cutColumn w.line text
  return ⟨index, name, file, line, text⟩

/-- A cell with blanks behind it up to a width. -/
def Fills (width : Nat) (cell piece : List Char) : Prop :=
  ∃ k, piece = cell ++ List.replicate k ' ' ∧ piece.length = width

def unpadded (cs : List Char) : List Char := (cs.reverse.dropWhile (· == ' ')).reverse

/-- A line of a table shows these cells: in each column but the last the cell and its padding, in the last
the cell alone. -/
structure Shows (w : Row Nat) (row : Cells) (line : List Char) : Prop where
  pieces : ∃ pieces, cutRow w line = some pieces ∧
    (∀ c, c ≠ .kind → Fills (w.get c) (row.get c) (pieces.get c)) ∧ pieces.kind = row.kind
  recovers : (cutRow w line).map (Row.map unpadded) = some (row.map unpadded)

/-! ## Cutting what has been put together -/

theorem length_pad (h : cell.length ≤ n) : (pad n cell).length = n := by
  rw [pad, List.length_append, List.length_replicate]
  omega

theorem fills_pad (h : cell.length ≤ n) : Fills n cell (pad n cell) :=
  ⟨n - cell.length, rfl, length_pad h⟩

theorem cutColumn_append (h : cell.length = n) :
    cutColumn n (cell ++ ' ' :: '|' :: ' ' :: rest) = some (cell, rest) := by
  subst h
  simp [cutColumn]

theorem unpadded_replicate (cell : List Char) (k : Nat) :
    unpadded (cell ++ List.replicate k ' ') = unpadded cell := by
  have hblanks : ∀ c ∈ List.replicate k ' ', (c == ' ') = true := by
    intro c hc
    rw [List.eq_of_mem_replicate hc]
    rfl
  rw [unpadded, List.reverse_append, List.reverse_replicate,
    List.dropWhile_append_of_pos hblanks, unpadded]

/-! ## Lines of cells -/

/-- Cells that a line of a table can show: none is longer than its column, and the last one does not end
in a blank. -/
structure Fits (w : Row Nat) (row : Cells) : Prop where
  length_le (c : Column) : (row.get c).length ≤ w.get c
  kind_ends : ∃ front c, row.kind = front ++ [c] ∧ Text.isBlank c = false

theorem trimEnd_blanks (front : List Char) {c : Char} (h : Text.isBlank c = false) (k : Nat) :
    Text.trimEnd (front ++ [c] ++ List.replicate k ' ') = front ++ [c] := by
  have hblanks : ∀ d ∈ List.replicate k ' ', Text.isBlank d = true := by
    intro d hd
    rw [List.eq_of_mem_replicate hd]
    rfl
  rw [Text.trimEnd, List.reverse_append, List.reverse_replicate,
    List.dropWhile_append_of_pos hblanks, List.reverse_append, List.reverse_singleton,
    List.singleton_append, List.dropWhile_cons_of_neg (by simp [h])]
  simp

/-- Trimming takes away the padding of the last cell and nothing else. -/
theorem rowLine_eq (h : Fits w row) :
    rowLine w row = pad w.index row.index ++ ' ' :: '|' :: ' ' :: (pad w.name row.name ++
      ' ' :: '|' :: ' ' :: (pad w.file row.file ++ ' ' :: '|' :: ' ' :: (pad w.line row.line ++
        ' ' :: '|' :: ' ' :: row.kind))) := by
  obtain ⟨front, c, hkind, hc⟩ := h.kind_ends
  have hbar : " | ".toList = [' ', '|', ' '] := rfl
  have htrim := trimEnd_blanks (pad w.index row.index ++ ' ' :: '|' :: ' ' :: (pad w.name row.name ++
    ' ' :: '|' :: ' ' :: (pad w.file row.file ++ ' ' :: '|' :: ' ' :: (pad w.line row.line ++
      ' ' :: '|' :: ' ' :: front)))) hc (w.kind - row.kind.length)
  have hlast : pad w.kind row.kind =
      front ++ [c] ++ List.replicate (w.kind - row.kind.length) ' ' := by rw [pad, hkind]
  have hrow : joined " | " (Row.zipWith pad w row) = pad w.index row.index ++ ' ' :: '|' :: ' ' ::
      (pad w.name row.name ++ ' ' :: '|' :: ' ' :: (pad w.file row.file ++ ' ' :: '|' :: ' ' ::
        (pad w.line row.line ++ ' ' :: '|' :: ' ' :: pad w.kind row.kind))) := by
    simp [joined, Row.zipWith, Row.toList, hbar, List.intercalate]
  rw [rowLine, hrow, hlast, hkind]
  simpa [hkind] using htrim

theorem cutRow_rowLine (h : Fits w row) :
    cutRow w (rowLine w row) = some ⟨pad w.index row.index, pad w.name row.name,
      pad w.file row.file, pad w.line row.line, row.kind⟩ := by
  have hindex : (pad w.index row.index).length = w.index := length_pad (h.length_le .index)
  have hname : (pad w.name row.name).length = w.name := length_pad (h.length_le .name)
  have hfile : (pad w.file row.file).length = w.file := length_pad (h.length_le .file)
  have hline : (pad w.line row.line).length = w.line := length_pad (h.length_le .line)
  simp [rowLine_eq h, cutRow, cutColumn_append hindex, cutColumn_append hname,
    cutColumn_append hfile, cutColumn_append hline]

theorem shows_rowLine (h : Fits w row) : Shows w row (rowLine w row) := by
  constructor
  · refine ⟨_, cutRow_rowLine h, ?_, rfl⟩
    intro c hc
    have hfills := fills_pad (h.length_le c)
    cases c with
    | kind => contradiction
    | index => exact hfills
    | name => exact hfills
    | file => exact hfills
    | line => exact hfills
  · simp [cutRow_rowLine h, Row.map, pad, unpadded_replicate]

/-! ## The widths -/

theorem get_foldl_widths (rows : List Cells) (w : Row Nat) (c : Column) :
    (rows.foldl (fun w row => Row.zipWith (fun n cell => max n cell.length) w row) w).get c =
      (rows.map fun row => (row.get c).length).foldl max (w.get c) := by
  induction rows generalizing w with
  | nil => rfl
  | cons row rows ih =>
    rw [List.foldl_cons, List.map_cons, List.foldl_cons, ih]
    cases c <;> rfl

/-- A column is as wide as its widest cell, that of the head included. -/
theorem max?_widths (rows : List Cells) (c : Column) :
    ((header :: rows).map fun row => (row.get c).length).max? = some ((widths rows).get c) := by
  rw [List.map_cons, List.max?_cons', widths, get_foldl_widths]
  cases c <;> rfl

theorem length_le_widths (h : row ∈ header :: rows) (c : Column) :
    (row.get c).length ≤ (widths rows).get c := by
  have hmax := List.max?_eq_some_iff.mp (max?_widths rows c)
  exact hmax.2 _ (List.mem_map_of_mem h)

theorem separatorLine_eq (w : Row Nat) :
    separatorLine w = ['+'].intercalate [List.replicate (w.index + 1) '-',
      List.replicate (w.name + 2) '-', List.replicate (w.file + 2) '-',
      List.replicate (w.line + 2) '-', List.replicate (w.kind + 1) '-'] := by
  have hcross : "-+-".toList = ['-', '+', '-'] := rfl
  have hstrokes (n : Nat) : List.replicate (n + 1) '-' = List.replicate n '-' ++ ['-'] :=
    List.replicate_succ'
  have hboth (n : Nat) : List.replicate (n + 2) '-' = '-' :: List.replicate n '-' ++ ['-'] := by
    rw [List.replicate_succ', List.replicate_succ]
  have hlast (n : Nat) : List.replicate (n + 1) '-' = '-' :: List.replicate n '-' := rfl
  rw [hstrokes w.index, hboth, hboth, hboth, hlast w.kind]
  simp [separatorLine, joined, Row.map, Row.toList, List.intercalate, hcross]

theorem ruledWidths_separatorLine (w : Row Nat) : ruledWidths (separatorLine w) = some w := by
  have hsplit : (separatorLine w).splitOn '+' = [List.replicate (w.index + 1) '-',
      List.replicate (w.name + 2) '-', List.replicate (w.file + 2) '-',
      List.replicate (w.line + 2) '-', List.replicate (w.kind + 1) '-'] := by
    rw [separatorLine_eq]
    exact List.splitOn_intercalate '+' (by simp) (by simp)
  simp [ruledWidths, hsplit]

/-! ## The whole table -/

theorem kind_ends (k : CallableKind) :
    ∃ front c, k.text.toList = front ++ [c] ∧ Text.isBlank c = false := by
  have hlast : ∃ c, k.text.toList.getLast? = some c ∧ Text.isBlank c = false := by
    obtain _ | _ | _ | role := k
    case classMember => cases role <;> exact ⟨_, rfl, rfl⟩
    all_goals exact ⟨_, rfl, rfl⟩
  obtain ⟨c, hc, hblank⟩ := hlast
  obtain ⟨front, hfront⟩ := List.getLast?_eq_some_iff.mp hc
  exact ⟨front, c, hfront, hblank⟩

theorem kind_ends_of_mem (h : row ∈ header :: bodyCells records) :
    ∃ front c, row.kind = front ++ [c] ∧ Text.isBlank c = false := by
  rcases List.mem_cons.mp h with rfl | h
  · exact ⟨['k', 'i', 'n'], 'd', rfl, rfl⟩
  · obtain ⟨i, hi, rfl⟩ := List.mem_mapIdx.mp h
    exact kind_ends _

theorem fits_widths (h : row ∈ header :: bodyCells records) :
    Fits (widths (bodyCells records)) row :=
  ⟨length_le_widths h, kind_ends_of_mem h⟩

theorem newline_notMem_toString (n : Nat) : '\n' ∉ (toString n).toList := by
  intro h
  have hdigits : (toString n).toList = Nat.toDigits 10 n := by simp
  rw [hdigits] at h
  exact absurd (Nat.isDigit_of_mem_toDigits (by omega) (by omega) h) (by decide)

theorem newline_notMem_kind (k : CallableKind) : '\n' ∉ k.text.toList := by
  obtain _ | _ | _ | role := k
  case classMember => cases role <;> decide
  all_goals decide

theorem newline_notMem_cells (h : ∀ r ∈ records, '\n' ∉ r.name.toList ∧ '\n' ∉ r.file.toList)
    (hrow : row ∈ header :: bodyCells records) (c : Column) : '\n' ∉ row.get c := by
  rcases List.mem_cons.mp hrow with rfl | hrow
  · cases c <;> decide
  · obtain ⟨i, hi, rfl⟩ := List.mem_mapIdx.mp hrow
    obtain ⟨hname, hfile⟩ := h records[i] (List.getElem_mem hi)
    cases c with
    | index => exact newline_notMem_toString i
    | name => exact hname
    | file => exact hfile
    | line => exact newline_notMem_toString _
    | kind => exact newline_notMem_kind _

theorem newline_notMem_rowLine (h : Fits w row) (hcells : ∀ c, '\n' ∉ row.get c) :
    '\n' ∉ rowLine w row := by
  have hindex : '\n' ∉ row.index := hcells .index
  have hname : '\n' ∉ row.name := hcells .name
  have hfile : '\n' ∉ row.file := hcells .file
  have hline : '\n' ∉ row.line := hcells .line
  have hkind : '\n' ∉ row.kind := hcells .kind
  simp [rowLine_eq h, pad, hindex, hname, hfile, hline, hkind]

theorem newline_notMem_separatorLine (w : Row Nat) : '\n' ∉ separatorLine w := by
  have hcross : "-+-".toList = ['-', '+', '-'] := rfl
  simp [separatorLine, joined, Row.map, Row.toList, List.intercalate, hcross]

/-- Lines that hold no newline are found again between the newlines. -/
theorem splitOn_lines {lines : List (List Char)} (h : ∀ l ∈ lines, '\n' ∉ l) :
    (lines.flatMap (· ++ ['\n'])).splitOn '\n' = lines ++ [[]] := by
  have hjoin : lines.flatMap (· ++ ['\n']) = ['\n'].intercalate (lines ++ [[]]) := by
    clear h
    induction lines with
    | nil => rfl
    | cons l ls ih =>
      rw [List.flatMap_cons, ih, List.cons_append]
      cases ls <;> simp [List.intercalate]
  rw [hjoin]
  refine List.splitOn_intercalate '\n' ?_ (by simp)
  intro l hl
  rcases List.mem_append.mp hl with hl | hl
  · exact h l hl
  · simp_all

theorem table_lines (h : ∀ r ∈ records, '\n' ∉ r.name.toList ∧ '\n' ∉ r.file.toList) :
    (table records).toList.splitOn '\n' = tableLines records ++ [[]] := by
  rw [table, String.toList_ofList]
  apply splitOn_lines
  have hrow : ∀ row ∈ header :: bodyCells records,
      '\n' ∉ rowLine (widths (bodyCells records)) row := fun row hrow =>
    newline_notMem_rowLine (fits_widths hrow) (newline_notMem_cells h hrow)
  intro line hline
  rcases List.mem_cons.mp hline with rfl | hline
  · exact hrow header List.mem_cons_self
  rcases List.mem_cons.mp hline with rfl | hline
  · exact newline_notMem_separatorLine _
  · obtain ⟨row, hmem, rfl⟩ := List.mem_map.mp hline
    exact hrow row (List.mem_cons_of_mem header hmem)

/-- A table can be read back, whatever bars, strokes and blanks its cells hold, if no name and no file of
its records holds a newline: it has a head, a rule and one line for each record, in their order. The rule
says how wide the columns are, each as wide as its widest cell, and cut at these widths every line shows
its cells whole, with padding behind all of them but the last. -/
theorem table_shows_records (h : ∀ r ∈ records, '\n' ∉ r.name.toList ∧ '\n' ∉ r.file.toList) :
    ∃ head rule body w,
      (table records).toList.splitOn '\n' = head :: rule :: body ++ [[]] ∧
      body.length = records.length ∧
      ruledWidths rule = some w ∧
      (∀ c, ((header :: bodyCells records).map fun row => (row.get c).length).max? =
        some (w.get c)) ∧
      Shows w header head ∧
      ∀ (i : Nat) (r : CallableRecord), records[i]? = some r → ∃ line, body[i]? = some line ∧
        Shows w ⟨(toString i).toList, r.name.toList, r.file.toList, (toString r.line.toNat).toList,
          r.kind.text.toList⟩ line := by
  refine ⟨_, _, _, widths (bodyCells records), table_lines h, ?_, ruledWidths_separatorLine _,
    max?_widths _, shows_rowLine (fits_widths List.mem_cons_self), ?_⟩
  · simp [bodyCells]
  · intro i r hr
    have hrow : (bodyCells records)[i]? = some (cells i r) := by
      rw [bodyCells, List.getElem?_mapIdx, hr]
      rfl
    refine ⟨rowLine (widths (bodyCells records)) (cells i r), ?_, ?_⟩
    · rw [List.getElem?_map, hrow]
      rfl
    · exact shows_rowLine (fits_widths (List.mem_cons_of_mem header (List.mem_of_getElem? hrow)))

/-- Names with a bar, with a blank at the end and with a letter outside of ASCII. -/
def sampleRecords : List CallableRecord := [
  ⟨"a | b ", "x.js", 1, .arrowFunction⟩, ⟨"é", "lib/y.mjs", 12, .classMember .get⟩]

theorem table_shows_records_sampleRecords :
    (∀ r ∈ sampleRecords, '\n' ∉ r.name.toList ∧ '\n' ∉ r.file.toList) ∧
      ∃ head rule body w,
        (table sampleRecords).toList.splitOn '\n' = head :: rule :: body ++ [[]] ∧
        body.length = 2 ∧ ruledWidths rule = some w ∧
        ∃ line, body[0]? = some line ∧
          Shows w (Row.map String.toList ⟨"0", "a | b ", "x.js", "1", "ArrowFunction"⟩) line := by
  have hnewline : ∀ r ∈ sampleRecords, '\n' ∉ r.name.toList ∧ '\n' ∉ r.file.toList := by
    decide +kernel
  obtain ⟨head, rule, body, w, hsplit, hlength, hrule, -, -, hbody⟩ := table_shows_records hnewline
  exact ⟨hnewline, head, rule, body, w, hsplit, hlength, hrule, hbody 0 _ rfl⟩

example : table sampleRecords =
    "(index) | name   | file      | line | kind\n" ++
    "--------+--------+-----------+------+------------------\n" ++
    "0       | a | b  | x.js      | 1    | ArrowFunction\n" ++
    "1       | é      | lib/y.mjs | 12   | ClassMethod (get)\n" := by
  decide +kernel

end Census.Report
