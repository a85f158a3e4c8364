/-!
Numbering the lines of a text. A line ends after `\n`, after `\r\n`, or after a `\r` that no `\n`
follows. A place in a text is the number of characters from there to its end, so a place keeps its
number when something is put in front of the text. Lines are looked up by bytes: a table holds the
offset of the first byte of each line, counted from 1, and the line of an offset is found in it by
halving.
-/

namespace Census.Text

/-- A place in a text: how many characters are still to come. -/
abbrev Pos := Nat

/-- A line ends with this character when these characters follow it. -/
def endsLine (c : Char) (after : List Char) : Bool :=
  c == '\n' || (c == '\r' && after.head? != some '\n')

/-- Adds the offsets after the line ends of some characters, which start at `offset`. Gives the offset
at their end as well. -/
def addLineStarts (starts : Array UInt32) (offset : UInt32) : List Char → Array UInt32 × UInt32
  | [] => (starts, offset)
  | c :: cs =>
    let next := offset + c.utf8Size.toUInt32
    addLineStarts (if endsLine c cs then starts.push next else starts) next cs

/-- The offsets of the first bytes of the lines. After a line end at the end of the text there is no
further line. -/
def lineStarts (text : List Char) : Array UInt32 :=
  let (starts, stop) := addLineStarts #[1] 1 text
  if starts.back? == some stop then starts.pop else starts

/-- The offset of a place. -/
def offsetOf (text : List Char) (pos : Pos) : UInt32 :=
  (text.take (text.length - pos)).foldl (fun offset c => offset + c.utf8Size.toUInt32) 1

/-- The index of an offset between two bounds in an ascending table, or else the index where it would
have to be put in. -/
def findOffset (starts : Array UInt32) (offset : UInt32) (low high : Nat) (h : high ≤ starts.size) :
    Except Nat Nat :=
  if _ : low < high then
    let middle := low + (high - low) / 2
    have _ : middle < starts.size := by omega
    if starts[middle] = offset then .ok middle
    else if starts[middle] < offset then findOffset starts offset (middle + 1) high h
    else findOffset starts offset low middle (by omega)
  else .error low
termination_by high - low

/-- The number of the line that holds the place `pos`: lines count from 1, and 0 stands for a place
before all of them. The end of the text is on the line of the last character, also when that character
ends a line. -/
def lineOf (text : List Char) (pos : Pos) : Nat :=
  let starts := lineStarts text
  match findOffset starts (offsetOf text pos) 0 starts.size (Nat.le_refl _) with
  | .ok line => line + 1
  | .error line => line

end Census.Text
