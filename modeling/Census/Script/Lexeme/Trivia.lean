import Census.Script.Token
import Census.Text.Blank
/-!
What stands between two tokens: blanks, line ends and comments. The two old comment marks for the
rest of a line are passed over like a line comment and reported.
-/

namespace Census.Script

open Census.Text (Pos isLineTerminator isScriptBlank)

/-- What the next character of a gap belongs to. -/
inductive Gap where
  | blank
  | line
  | block
  deriving DecidableEq, Repr

structure Trivia where
  cursor : Cursor
  sawBreak : Bool
  /-- Newest first. -/
  faults : List Fault
  deriving DecidableEq, Repr

/-- Passes over a gap. A mark `-->` counts only where a line has ended in the gap before it. -/
def skipGap (gap : Gap) (sawBreak : Bool) (faults : List Fault) : List Char → Pos → Trivia
  | [], pos =>
    match gap with
    | .block => ⟨⟨[], pos⟩, sawBreak, ⟨pos, .unterminatedComment⟩ :: faults⟩
    | _ => ⟨⟨[], pos⟩, sawBreak, faults⟩
  | c :: cs, pos =>
    match gap with
    | .line =>
      if isLineTerminator c then skipGap .blank true faults cs (pos - 1)
      else skipGap .line sawBreak faults cs (pos - 1)
    | .block =>
      match c, cs with
      | '*', '/' :: rest => skipGap .blank sawBreak faults rest (pos - 2)
      | c, cs => skipGap .block (sawBreak || isLineTerminator c) faults cs (pos - 1)
    | .blank =>
      match c, cs with
      | '/', '/' :: rest => skipGap .line sawBreak faults rest (pos - 2)
      | '/', '*' :: rest => skipGap .block sawBreak faults rest (pos - 2)
      | '<', '!' :: '-' :: '-' :: rest =>
        skipGap .line sawBreak (⟨pos, .legacyComment⟩ :: faults) rest (pos - 4)
      | '-', '-' :: '>' :: rest =>
        if sawBreak then skipGap .line sawBreak (⟨pos, .legacyComment⟩ :: faults) rest (pos - 3)
        else ⟨⟨'-' :: '-' :: '>' :: rest, pos⟩, sawBreak, faults⟩
      | c, cs =>
        if isLineTerminator c then skipGap .blank true faults cs (pos - 1)
        else if isScriptBlank c then skipGap .blank sawBreak faults cs (pos - 1)
        else ⟨⟨c :: cs, pos⟩, sawBreak, faults⟩

/-- The gap before the next token. The start of a text counts as the start of a line. -/
def Cursor.skipTrivia (c : Cursor) (atStart : Bool) : Trivia :=
  skipGap .blank atStart [] c.rest c.pos

end Census.Script
