import Census.Json.Fault
/-!
Numbers of a JSON text. The first digits that fit into 64 bits are kept, the number of digits after
them and the exponent only scale; every step of the scaling is rounded.
-/

namespace Census.Json

open Census.Number (Binary64)

def digitOf (c : Char) : Nat := c.toNat - '0'.toNat

def largestNatural : Nat := UInt64.size - 1

/-- Adds digits to a significand as long as it stays below 2 ^ 64. Gives the significand, the number of
digits added and the text from the first digit that does not fit, or from the first character that
is no digit. -/
def addDigits : Nat → Nat → List Char → Nat × Nat × List Char
  | value, count, c :: cs =>
    if c.isDigit && value * 10 + digitOf c ≤ largestNatural then
      addDigits (value * 10 + digitOf c) (count + 1) cs
    else (value, count, c :: cs)
  | value, count, [] => (value, count, [])

def startsWithDigit : List Char → Bool
  | c :: _ => c.isDigit
  | [] => false

def skipDigits (cs : List Char) : List Char := cs.dropWhile Char.isDigit

/-- Divides by a power of ten in steps of at most 308 powers, until nothing is left to divide. -/
def scaleDown (f : Binary64) (e : Nat) : Binary64 :=
  if e ≤ 308 then f.div (.ofDecimal 1 e)
  else if f.isZero then f
  else scaleDown (f.div (.ofDecimal 1 308)) (e - 308)
termination_by e

/-- `significand * 10 ^ exponent`, rounded, if it is not too large. -/
def scale? (significand : Nat) (exponent : Int) : Option Binary64 :=
  let f := Binary64.ofNat significand
  if exponent < 0 then some (scaleDown f (-exponent).toNat)
  else if f.isZero then some f
  else if 308 < exponent then none
  else
    match f.mul (.ofDecimal 1 exponent) with
    | .infinity => none
    | product => some product

def scaled (isNegative : Bool) (significand : Nat) (exponent : Int) (rest : List Char) :
    Except Fault (Number × List Char) :=
  match scale? significand exponent with
  | some f => .ok (.rounded isNegative f, rest)
  | none => .error (.before rest .numberOutOfRange)

def largestExponent : Nat := UInt32.size / 2 - 1

/-- Adds digits to an exponent, or stops behind the digit with which it becomes too large. -/
def addExponentDigits : Nat → List Char → Nat × Bool × List Char
  | value, c :: cs =>
    if c.isDigit then
      if value * 10 + digitOf c ≤ largestExponent then
        addExponentDigits (value * 10 + digitOf c) cs
      else (value, false, cs)
    else (value, true, c :: cs)
  | value, [] => (value, true, [])

/-- The digits of an exponent, given the power of ten that the digits before it stand for. -/
def readExponentDigits (isNegative : Bool) (significand : Nat) (power : Int) (isDown : Bool)
    (cs : List Char) : Except Fault (Number × List Char) :=
  match cs with
  | [] => .error (.before [] .eofInValue)
  | c :: rest =>
    if !c.isDigit then .error (.behind cs .badNumber)
    else
      let (value, fits, rest) := addExponentDigits (digitOf c) rest
      if fits then
        scaled isNegative significand (if isDown then power - value else power + value) rest
      else if significand != 0 && !isDown then .error (.before rest .numberOutOfRange)
      else .ok (.rounded isNegative .zero, skipDigits rest)

/-- The part after the `e`. -/
def readExponent (isNegative : Bool) (significand : Nat) (power : Int) (cs : List Char) :
    Except Fault (Number × List Char) :=
  match cs with
  | '+' :: rest => readExponentDigits isNegative significand power false rest
  | '-' :: rest => readExponentDigits isNegative significand power true rest
  | _ => readExponentDigits isNegative significand power false cs

def readPower (isNegative : Bool) (significand : Nat) (power : Int) (cs : List Char) :
    Except Fault (Number × List Char) :=
  match cs with
  | 'e' :: rest | 'E' :: rest => readExponent isNegative significand power rest
  | _ => scaled isNegative significand power cs

/-- The part after the point. Digits that do not fit are passed over. -/
def readFraction (isNegative : Bool) (significand : Nat) (power : Int) (cs : List Char) :
    Except Fault (Number × List Char) :=
  let (value, count, rest) := addDigits significand 0 cs
  if startsWithDigit rest then
    readPower isNegative value (power - count) (skipDigits rest)
  else if count == 0 then
    .error (.behind rest (if rest.isEmpty then .eofInValue else .badNumber))
  else readPower isNegative value (power - count) rest

def whole (isNegative : Bool) (significand : Nat) : Number :=
  if !isNegative then .natural significand
  else if significand == 0 || UInt64.size / 2 < significand then
    .rounded true (Binary64.ofNat significand)
  else .negative significand

def readTail (isNegative : Bool) (significand : Nat) (cs : List Char) : Except Fault (Number × List Char) :=
  match cs with
  | '.' :: rest => readFraction isNegative significand 0 rest
  | 'e' :: rest | 'E' :: rest => readExponent isNegative significand 0 rest
  | _ => .ok (whole isNegative significand, cs)

def readMagnitude (isNegative : Bool) (cs : List Char) : Except Fault (Number × List Char) :=
  match cs with
  | [] => .error (.before [] .eofInValue)
  | c :: rest =>
    if !c.isDigit then .error (.behind cs .badNumber)
    else if c == '0' then
      if startsWithDigit rest then .error (.behind rest .badNumber)
      else readTail isNegative 0 rest
    else
      let (value, _, rest) := addDigits (digitOf c) 1 rest
      if startsWithDigit rest then
        let after := skipDigits rest
        let power := rest.length - after.length
        match after with
        | '.' :: rest => readFraction isNegative value power rest
        | _ => readPower isNegative value power after
      else readTail isNegative value rest

end Census.Json
