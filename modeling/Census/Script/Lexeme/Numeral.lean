import Census.Script.Lexeme.Basic
import Census.Text.Identifier
/-!
Numerals. A numeral that starts with a zero and goes on with octal digits, or with digits of which
one is not octal, is a legacy form and reported.
-/

namespace Census.Script

open Census.Text (Pos isNameStart)
open Census.Number (Numeral)

/-- A name may start here, plainly or with an escape. -/
def nameFollows (cs : List Char) : Bool :=
  match cs.head? with
  | some c => isNameStart c || c == '\\'
  | none => false

/-- A numeral must not run into a name. -/
def finishNumber (cs : List Char) (pos : Pos) (value : Numeral) (used : Nat)
    (faults : List Fault) : Lexeme :=
  if nameFollows (cs.drop used) then Lexeme.broken used faults (pos - used) .nameAfterNumber
  else ⟨.number value, used, faults⟩

def separatorFaults (pos : Pos) (misplaced : Bool) : List Fault :=
  if misplaced then [⟨pos, .misplacedSeparator⟩] else []

/-- A numeral after one of the marks `0x`, `0o` and `0b`. -/
def readBaseNumber (base : Nat) (name : String) (cs : List Char) (pos : Pos) : Lexeme :=
  let ds := readDigits base none (cs.drop 2)
  let faults := separatorFaults pos ds.misplaced
  let used := ds.used + 2
  if ds.used == 0 then Lexeme.broken 2 [] (pos - 2) (.digitExpected name)
  else if (cs.drop used).head? == some 'n' then ⟨.bigint, used + 1, faults⟩
  else finishNumber cs pos (.inBase base ds.values) used faults

/-- The exponent part of a decimal numeral, if one stands here. -/
inductive ExponentPart where
  | absent
  | broken (used : Nat) (cause : Cause)
  | read (value : Int) (used : Nat) (misplaced : Bool)

def readExponent (cs : List Char) : ExponentPart :=
  match cs with
  | c :: rest =>
    if c != 'e' && c != 'E' then .absent else
    match rest with
    | [] => .broken 1 .exponentExpected
    | s :: tail =>
      let signed := s == '+' || s == '-'
      let ds := readDigits 10 none (if signed then tail else rest)
      let before := if signed then 2 else 1
      if ds.used == 0 then .broken before (.digitExpected "decimal")
      else
        let n : Int := Digits.toNat 10 ds.values
        .read (if s == '-' then -n else n) (before + ds.used) ds.misplaced
  | [] => .absent

/-- The part of a decimal numeral after its whole digits. -/
def readFraction (cs : List Char) (pos : Pos) (whole : List Nat) (used : Nat)
    (faults : List Fault) : Lexeme :=
  let afterWhole := cs.drop used
  let dot := afterWhole.head? == some '.'
  let frac := if dot then readDigits 10 none (afterWhole.drop 1) else ⟨[], 0, false⟩
  let used := if dot then used + 1 + frac.used else used
  let faults := faults ++ separatorFaults pos frac.misplaced
  let digits := Digits.toNat 10 (whole ++ frac.values)
  let shift : Int := -(frac.values.length : Int)
  match readExponent (cs.drop used) with
  | .absent => finishNumber cs pos (.decimal digits shift) used faults
  | .broken n cause => Lexeme.broken (used + n) faults (pos - used - n) cause
  | .read e n misplaced =>
    finishNumber cs pos (.decimal digits (shift + e)) (used + n)
      (faults ++ separatorFaults pos misplaced)

/-- A legacy octal numeral ends with its whole digits. -/
def finishLegacyOctal (cs : List Char) (pos : Pos) (ds : Digits) (faults : List Fault) : Lexeme :=
  let l := finishNumber cs pos (.inBase 8 ds.values) ds.used faults
  match l.kind with
  | .number _ => { l with faults := l.faults ++ [⟨pos, .legacyOctal⟩] }
  | _ => l

/-- A numeral that starts with a digit and with none of the base marks. -/
def readDecimal (cs : List Char) (pos : Pos) : Lexeme :=
  let ds := readDigits 10 none cs
  let faults := separatorFaults pos ds.misplaced
  let zeroFirst := ds.values.head? == some 0
  if (!zeroFirst || ds.used == 1) && (cs.drop ds.used).head? == some 'n' then
    ⟨.bigint, ds.used + 1, faults⟩
  else if zeroFirst && ds.used > 1 then
    if ds.values.all (· < 8) then finishLegacyOctal cs pos ds faults
    else readFraction cs pos ds.values ds.used (faults ++ [⟨pos, .legacyDecimal⟩])
  else readFraction cs pos ds.values ds.used faults

def readNumber (cs : List Char) (pos : Pos) : Lexeme :=
  match cs with
  | '.' :: _ => readFraction cs pos [] 0 []
  | '0' :: 'x' :: _ | '0' :: 'X' :: _ => readBaseNumber 16 "hexadecimal" cs pos
  | '0' :: 'o' :: _ | '0' :: 'O' :: _ => readBaseNumber 8 "octal" cs pos
  | '0' :: 'b' :: _ | '0' :: 'B' :: _ => readBaseNumber 2 "binary" cs pos
  | _ => readDecimal cs pos

end Census.Script
