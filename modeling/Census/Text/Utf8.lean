/-!
Reading bytes as UTF-8. Wherever the bytes are not well formed, the longest start of a well-formed
sequence (or else the single byte) stands for one replacement character.
-/

namespace Census.Text

/-- The bytes allowed after the lead byte of a sequence of two or more bytes: how many there are, and
the range of the first of them. The others range over 0x80 to 0xBF. -/
def leadByte (b : UInt8) : Option (Nat × UInt8 × UInt8) :=
  if 0xC2 ≤ b && b ≤ 0xDF then some (1, 0x80, 0xBF)
  else if b == 0xE0 then some (2, 0xA0, 0xBF)
  else if b == 0xED then some (2, 0x80, 0x9F)
  else if 0xE1 ≤ b && b ≤ 0xEF then some (2, 0x80, 0xBF)
  else if b == 0xF0 then some (3, 0x90, 0xBF)
  else if 0xF1 ≤ b && b ≤ 0xF3 then some (3, 0x80, 0xBF)
  else if b == 0xF4 then some (3, 0x80, 0x8F)
  else none

def isBetween (lo hi b : UInt8) : Bool := lo ≤ b && b ≤ hi

def isTail (b : UInt8) : Bool := isBetween 0x80 0xBF b

def lowBits (b : UInt8) : Nat := b.toNat % 64

/-- One character or one malformed piece at the front of the bytes, and what follows it. -/
def decodeStep : List UInt8 → Option (Option Char × List UInt8)
  | [] => none
  | b :: bs =>
    if b < 0x80 then some (some (Char.ofNat b.toNat), bs) else
    match leadByte b with
    | none => some (none, bs)
    | some (n, lo, hi) =>
      match bs with
      | [] => some (none, [])
      | b₁ :: bs₁ =>
        if !isBetween lo hi b₁ then some (none, bs) else
        if n == 1 then some (some (Char.ofNat ((b.toNat % 32) * 64 + lowBits b₁)), bs₁) else
        match bs₁ with
        | [] => some (none, [])
        | b₂ :: bs₂ =>
          if !isTail b₂ then some (none, bs₁) else
          if n == 2 then
            some (some (Char.ofNat ((b.toNat % 16) * 4096 + lowBits b₁ * 64 + lowBits b₂)), bs₂)
          else
            match bs₂ with
            | [] => some (none, [])
            | b₃ :: bs₃ =>
              if !isTail b₃ then some (none, bs₂) else
              some (some (Char.ofNat ((b.toNat % 8) * 262144 + lowBits b₁ * 4096 + lowBits b₂ * 64
                + lowBits b₃)), bs₃)

/-- All characters of the bytes, `none` for each malformed piece. -/
def decodePieces (bytes : List UInt8) : List (Option Char) := go bytes.length bytes []
where
  go : Nat → List UInt8 → List (Option Char) → List (Option Char)
    | 0, _, acc => acc.reverse
    | fuel + 1, bs, acc =>
      match decodeStep bs with
      | none => acc.reverse
      | some (piece, rest) => go fuel rest (piece :: acc)

/-- The text of the bytes, with U+FFFD for each malformed piece. -/
def decodeLossy (bytes : List UInt8) : List Char :=
  (decodePieces bytes).map fun piece => piece.getD '\ufffd'

/-- The text of the bytes, if they are well formed throughout. -/
def decode? (bytes : List UInt8) : Option (List Char) := (decodePieces bytes).mapM id

end Census.Text
