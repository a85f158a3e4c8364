import Census.Script.Token
/-!
Reading a run of digits, and the shape of what the reader of one token gives back.
-/

namespace Census.Script

open Census.Text (Pos)

/-- One token read at the front of a text: how many characters it takes, and the faults that do not
keep it from being a token, in the order found. -/
structure Lexeme where
  kind : Kind
  used : Nat
  faults : List Fault
  deriving DecidableEq, Repr

/-- A text that is no token, of which `used` characters are passed over. -/
def Lexeme.broken (used : Nat) (faults : List Fault) (pos : Pos) (cause : Cause) : Lexeme :=
  ⟨.broken ⟨pos, cause⟩, used, faults⟩

def digitValue? (base : Nat) (c : Char) : Option Nat :=
  let n :=
    if c.isDigit then c.toNat - '0'.toNat
    else if 'a' ≤ c && c ≤ 'f' then c.toNat - 'a'.toNat + 10
    else if 'A' ≤ c && c ≤ 'F' then c.toNat - 'A'.toNat + 10
    else base
  if n < base then some n else none

/-- Digits with separators between them. -/
structure Digits where
  values : List Nat
  used : Nat
  /-- Some separator has no digit after it. -/
  misplaced : Bool
  deriving DecidableEq, Repr

/-- The longest run of at most `limit` digits. -/
def readDigits (base : Nat) (limit : Option Nat) (cs : List Char) : Digits := go cs [] 0 false
where
  go : List Char → List Nat → Nat → Bool → Digits
    | [], acc, used, misplaced => ⟨acc.reverse, used, misplaced⟩
    | c :: cs, acc, used, misplaced =>
      if limit == some acc.length then ⟨acc.reverse, used, misplaced⟩
      else if c == '_' then
        let digitNext := (cs.head?.bind (digitValue? base)).isSome
        go cs acc (used + 1) (misplaced || !digitNext)
      else
        match digitValue? base c with
        | some v => go cs (v :: acc) (used + 1) misplaced
        | none => ⟨acc.reverse, used, misplaced⟩

def Digits.toNat (base : Nat) (values : List Nat) : Nat :=
  values.foldl (fun acc v => acc * base + v) 0

end Census.Script
