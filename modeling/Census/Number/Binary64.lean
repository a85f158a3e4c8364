/-!
Magnitudes of 64-bit binary floating-point numbers, in exact integer arithmetic. A ratio of natural
numbers is rounded to the nearest such magnitude, a tie going to the even significand.
-/

namespace Census.Number

def twoTo (n : Nat) : Nat := Nat.pow 2 n

def tenTo (n : Nat) : Nat := Nat.pow 10 n

/-- `finite m e` is `m * 2 ^ e`, with `m < 2 ^ 53` and `-1074 ≤ e`. -/
inductive Binary64 where
  | finite (significand : Nat) (exponent : Int)
  | infinity
  deriving DecidableEq, Repr

namespace Binary64

def zero : Binary64 := .finite 0 0

def isZero : Binary64 → Bool
  | finite m _ => m == 0
  | infinity => false

/-- `num / den` to the nearest integer, a tie to the even one. -/
def nearest (num den : Nat) : Nat :=
  let q := num / den
  let twice := 2 * (num % den)
  if twice < den then q else if den < twice then q + 1 else q + q % 2

/-- The ratio `(num / den) / 2 ^ e` as numerator and denominator. -/
def scaled (num den : Nat) (e : Int) : Nat × Nat :=
  if e < 0 then (num * twoTo (-e).toNat, den) else (num, den * twoTo e.toNat)

/-- The exponent with which the ratio has 53 significant bits, or the least one there is. -/
def exponentFor (num den : Nat) : Int :=
  let guess : Int := max ((Nat.log2 num : Int) - Nat.log2 den - 53) (-1074)
  let s := scaled num den guess
  if s.1 / s.2 < twoTo 53 then guess else guess + 1

/-- The magnitude nearest to `num / den`. -/
def ofRatio (num den : Nat) : Binary64 :=
  if num == 0 || den == 0 then zero else
  let e := exponentFor num den
  let s := scaled num den e
  let m := nearest s.1 s.2
  let (m, e) := if m == twoTo 53 then (twoTo 52, e + 1) else (m, e)
  if e > 971 then infinity else finite m e

def ofNat (n : Nat) : Binary64 := ofRatio n 1

/-- The magnitude nearest to `n * 10 ^ e`. Exponents too far out are settled without the power. -/
def ofDecimal (n : Nat) (e : Int) : Binary64 :=
  if n == 0 then zero else
  let top : Int := e + (Nat.log2 n : Int) * 30103 / 100000
  if top > 400 then infinity
  else if top < -400 then zero
  else if e < 0 then ofRatio n (tenTo (-e).toNat) else ofRatio (n * tenTo e.toNat) 1

def toRatio : Binary64 → Nat × Nat
  | finite m e => if e < 0 then (m, twoTo (-e).toNat) else (m * twoTo e.toNat, 1)
  | infinity => (0, 1)

def mul (a b : Binary64) : Binary64 :=
  if a == infinity || b == infinity then infinity else
  ofRatio (a.toRatio.1 * b.toRatio.1) (a.toRatio.2 * b.toRatio.2)

def div (a b : Binary64) : Binary64 :=
  if a == infinity then infinity else if b == infinity then zero else
  ofRatio (a.toRatio.1 * b.toRatio.2) (a.toRatio.2 * b.toRatio.1)

/-- The value of digits in a base, rounded after every digit. -/
def ofDigits (base : Nat) (digits : List Nat) : Binary64 :=
  digits.foldl (fun acc d =>
    match acc with
    | infinity => infinity
    | finite m e =>
      let r := toRatio (finite m e)
      ofRatio (r.1 * base + d * r.2) r.2) zero

end Binary64

end Census.Number
