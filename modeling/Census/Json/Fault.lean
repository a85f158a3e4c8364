import Census.Number.Decimal
import Census.Text.Escape
/-!
What can be wrong with a JSON text, and where. A place is the number of bytes that are still to come.
-/

namespace Census.Json

open Census.Number (Binary64)

/-- A number of a JSON text. Whole numbers that fit into 64 bits are exact, all others are rounded;
so is a zero with a sign. -/
inductive Number where
  | natural (n : Nat)
  | negative (n : Nat)
  | rounded (isNegative : Bool) (magnitude : Binary64)
  deriving DecidableEq, Repr

inductive Found where
  | null
  | boolean (b : Bool)
  | number (n : Number)
  | string (s : String)
  | sequence
  | map
  deriving DecidableEq, Repr

def Number.describe : Number → String
  | natural n => "integer `" ++ toString n ++ "`"
  | negative n => "integer `-" ++ toString n ++ "`"
  | rounded isNegative magnitude =>
    "floating point `" ++ (if isNegative then "-" else "") ++ magnitude.scientificText ++ "`"

def Found.describe : Found → String
  | null => "null"
  | boolean b => "boolean `" ++ (if b then "true" else "false") ++ "`"
  | number n => n.describe
  | string s => "string " ++ Text.showString s
  | sequence => "sequence"
  | map => "map"

inductive Cause where
  -- the text ends too early
  | eofInValue
  | eofInString
  | eofInList
  | eofInObject
  -- something else has to stand here
  | valueExpected
  | wordExpected
  | colonExpected
  | listEndExpected
  | objectEndExpected
  | keyExpected
  | trailingComma
  | trailingCharacters
  -- numbers and strings
  | badNumber
  | numberOutOfRange
  | badEscape
  | halfPair
  | lonePart
  | controlCharacter
  | tooDeep
  -- values of the wrong shape
  | wrongType (found : Found) (wanted : String)
  | wrongValue (found : Found) (wanted : String)
  | unknownField (name : String) (fields : String)
  | duplicateField (name : String)
  | tooLong (length : Nat)
  deriving DecidableEq, Repr

def Cause.message : Cause → String
  | eofInValue => "EOF while parsing a value"
  | eofInString => "EOF while parsing a string"
  | eofInList => "EOF while parsing a list"
  | eofInObject => "EOF while parsing an object"
  | valueExpected => "expected value"
  | wordExpected => "expected ident"
  | colonExpected => "expected `:`"
  | listEndExpected => "expected `,` or `]`"
  | objectEndExpected => "expected `,` or `\x7d`"
  | keyExpected => "key must be a string"
  | trailingComma => "trailing comma"
  | trailingCharacters => "trailing characters"
  | badNumber => "invalid number"
  | numberOutOfRange => "number out of range"
  | badEscape => "invalid escape"
  | halfPair => "unexpected end of hex escape"
  | lonePart => "lone leading surrogate in hex escape"
  | controlCharacter => "control character (\\u0000-\\u001F) found while parsing a string"
  | tooDeep => "recursion limit exceeded"
  | wrongType found wanted => "invalid type: " ++ found.describe ++ ", expected " ++ wanted
  | wrongValue found wanted => "invalid value: " ++ found.describe ++ ", expected " ++ wanted
  | unknownField name fields => "unknown field `" ++ name ++ "`, expected " ++ fields
  | duplicateField name => "duplicate field `" ++ name ++ "`"
  | tooLong length =>
    "invalid length " ++ toString length ++ ", expected fewer elements in array"

def byteLength : List Char → Nat
  | [] => 0
  | c :: cs => c.utf8Size + byteLength cs

structure Fault where
  cause : Cause
  /-- Bytes after the place. -/
  left : Nat
  deriving DecidableEq, Repr

def Fault.before (rest : List Char) (cause : Cause) : Fault := ⟨cause, byteLength rest⟩

/-- A fault behind the first byte of a text, or at its end if it is empty. -/
def Fault.behind (rest : List Char) (cause : Cause) : Fault := ⟨cause, byteLength rest - 1⟩

/-- Line and column of the place before which `n` bytes stand. The column counts the bytes since the
last line feed. -/
def lineAndColumn (n : Nat) (cs : List Char) : Nat × Nat := go n cs 1 0
where
  go : Nat → List Char → Nat → Nat → Nat × Nat
    | n, c :: cs, line, column =>
      if n < c.utf8Size then (line, column + n)
      else if c == '\n' then go (n - 1) cs (line + 1) 0
      else go (n - c.utf8Size) cs line (column + c.utf8Size)
    | _, [], line, column => (line, column)

structure Error where
  cause : Cause
  place : Option (Nat × Nat)
  deriving DecidableEq, Repr

def Fault.inText (text : List Char) (fault : Fault) : Error :=
  ⟨fault.cause, some (lineAndColumn (byteLength text - fault.left) text)⟩

def Error.message (e : Error) : String :=
  match e.place with
  | some (line, column) =>
    e.cause.message ++ " at line " ++ toString line ++ " column " ++ toString column
  | none => e.cause.message

end Census.Json
