import Census.Number.Decimal
/-!
Numerals of a script: the digits as written, and the text of the number that they denote.
-/

namespace Census.Number

/-- A numeral with its separators removed. -/
inductive Numeral where
  /-- `digits * 10 ^ exponent`, rounded once. -/
  | decimal (digits : Nat) (exponent : Int)
  /-- Digits in another base, rounded after each digit. -/
  | inBase (base : Nat) (digits : List Nat)
  deriving DecidableEq, Repr

namespace Numeral

def value : Numeral → Binary64
  | decimal digits exponent => Binary64.ofDecimal digits exponent
  | inBase base digits => Binary64.ofDigits base digits

/-- The number without an exponent. -/
def text (n : Numeral) : String := n.value.positionalText

end Numeral

end Census.Number
