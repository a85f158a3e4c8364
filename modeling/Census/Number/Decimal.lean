import Census.Number.Binary64
/-!
The shortest decimal that reads back as a given floating-point magnitude, and two ways to write it:
without an exponent at all, and with one outside a middle range.
-/

namespace Census.Number

structure Decimal where
  digits : Nat
  exponent : Int
  deriving DecidableEq, Repr

namespace Decimal

/-- Ends of the interval of reals that round to `m * 2 ^ e`, as multiples of `2 ^ (e - 2)`. -/
def interval (m : Nat) (e : Int) : Nat × Nat :=
  (if m == twoTo 52 && e > -1074 then 4 * m - 1 else 4 * m - 2, 4 * m + 2)

/-- `n * 10 ^ k` and `q * 2 ^ e` with a common denominator. -/
def aligned (n : Nat) (k : Int) (q : Nat) (e : Int) : Nat × Nat :=
  let five := tenTo k.natAbs
  let two := twoTo e.natAbs
  let left := if k < 0 then n else n * five
  let right := if e < 0 then q else q * two
  (left * (if e < 0 then two else 1), right * (if k < 0 then five else 1))

/-- `n * 10 ^ k` rounds to `m * 2 ^ e`. The ends of the interval do so when `m` is even. -/
def readsBack (m : Nat) (e : Int) (n : Nat) (k : Int) : Bool :=
  let ends := interval m e
  let lo := aligned n k ends.1 (e - 2)
  let hi := aligned n k ends.2 (e - 2)
  if m % 2 == 0 then lo.2 ≤ lo.1 && hi.1 ≤ hi.2 else lo.2 < lo.1 && hi.1 < hi.2

/-- The multiple of `10 ^ k` at or below `m * 2 ^ e`. -/
def floorAt (m : Nat) (e : Int) (k : Int) : Nat :=
  let num := (if e < 0 then m else m * twoTo e.toNat) * (if k < 0 then tenTo (-k).toNat else 1)
  let den := (if e < 0 then twoTo (-e).toNat else 1) * (if k < 0 then 1 else tenTo k.toNat)
  num / den

/-- The multiples of `10 ^ k` around `m * 2 ^ e` that read back, the nearer one first choice. -/
def gridHit (m : Nat) (e : Int) (k : Int) : Option Nat :=
  let n := floorAt m e k
  match readsBack m e n k, readsBack m e (n + 1) k with
  | true, false => some n
  | false, true => some (n + 1)
  | false, false => none
  | true, true =>
    let s := aligned (2 * n + 1) k (2 * m) e
    if s.2 < s.1 then some n
    else if s.1 < s.2 then some (n + 1)
    else some (n + n % 2)

def numDigits (n : Nat) : Nat := (Nat.toDigits 10 n).length

/-- The power of ten of the first digit of `m * 2 ^ e`. -/
def leadingPower (m : Nat) (e : Int) : Int :=
  if e < 0 then
    let den := twoTo (-e).toNat
    if den ≤ m then (numDigits (m / den) : Int) - 1
    else
      let k := numDigits (den / m)
      if m * tenTo (k - 1) < den then -(k : Int) else -(k : Int) + 1
  else (numDigits (m * twoTo e.toNat) : Int) - 1

/-- Tries grids from coarse to fine. Seventeen digits are always enough. -/
def search (m : Nat) (e : Int) (top : Int) : Nat → Nat → Decimal
  | 0, used => ⟨floorAt m e (top - used), top - used⟩
  | fuel + 1, used =>
    match gridHit m e (top - used) with
    | some n => ⟨n, top - used⟩
    | none => search m e top fuel (used + 1)

/-- Moves trailing zeros of the digits into the exponent. -/
def normalize : Nat → Decimal → Decimal
  | 0, d => d
  | fuel + 1, d =>
    if d.digits != 0 && d.digits % 10 == 0 then normalize fuel ⟨d.digits / 10, d.exponent + 1⟩ else d

/-- The shortest decimal that reads back as `m * 2 ^ e`, and of those the nearest. -/
def shortest (m : Nat) (e : Int) : Decimal :=
  if m == 0 then ⟨0, 0⟩ else normalize 20 (search m e (leadingPower m e) 17 0)

def digitText (d : Decimal) : String := String.ofList (Nat.toDigits 10 d.digits)

def zeros (n : Nat) : String := String.ofList (List.replicate n '0')

/-- All digits before and after the point, and no point behind a whole number. -/
def positional (d : Decimal) : String :=
  let ds := Nat.toDigits 10 d.digits
  if 0 ≤ d.exponent then
    if d.digits == 0 then "0" else d.digitText ++ zeros d.exponent.toNat
  else
    let places := (-d.exponent).toNat
    if places < ds.length then
      String.ofList (ds.take (ds.length - places)) ++ "." ++ String.ofList (ds.drop (ds.length - places))
    else "0." ++ zeros (places - ds.length) ++ d.digitText

/-- At least two digits, with the sign. -/
def exponentText (e : Int) : String :=
  let ds := toString e.natAbs
  (if e < 0 then "e-" else "e+") ++ (if e.natAbs < 10 then "0" ++ ds else ds)

/-- Positional with at least one digit behind the point where the first digit stands for a power of
ten between -5 and 15, else one digit before the point and an exponent. -/
def scientific (d : Decimal) : String :=
  let ds := Nat.toDigits 10 d.digits
  let top := d.exponent + ds.length - 1
  if d.digits == 0 then "0.0"
  else if -5 ≤ top && top ≤ 15 then
    if 0 ≤ d.exponent then d.positional ++ ".0" else d.positional
  else
    let tail := ds.drop 1
    String.ofList (ds.take 1) ++ (if tail.isEmpty then "" else "." ++ String.ofList tail)
      ++ exponentText top

end Decimal

namespace Binary64

/-- Without an exponent, whatever the size. -/
def positionalText : Binary64 → String
  | finite m e => (Decimal.shortest m e).positional
  | infinity => "Infinity"

def scientificText : Binary64 → String
  | finite m e => (Decimal.shortest m e).scientific
  | infinity => "inf"

end Binary64

end Census.Number
