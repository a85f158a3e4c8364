import Census.Json.Numeral
/-!
The tokens of a JSON text. Reading stops at the first text that is no token.
-/

namespace Census.Json

def isBlank (c : Char) : Bool := c == ' ' || c == '\n' || c == '\t' || c == '\r'

inductive TokenKind where
  | leftBrace
  | rightBrace
  | leftBracket
  | rightBracket
  | colon
  | comma
  | null
  | boolean (b : Bool)
  | number (n : Number)
  | string (s : String)
  | brokenString (fault : Fault)
  | brokenScalar (fault : Fault)
  | other
  | eof
  deriving DecidableEq, Repr

/-- A token with the text from its first character on and the text after it. -/
structure Token where
  kind : TokenKind
  start : List Char
  rest : List Char
  deriving DecidableEq, Repr

/-! ## Strings -/

def hexValue? (c : Char) : Option Nat :=
  if c.isDigit then some (c.toNat - '0'.toNat)
  else if 'a' ≤ c && c ≤ 'f' then some (c.toNat - 'a'.toNat + 10)
  else if 'A' ≤ c && c ≤ 'F' then some (c.toNat - 'A'.toNat + 10)
  else none

/-- Four hexadecimal digits. They are looked for in the next four bytes. -/
def readHex (cs : List Char) : Except Fault (Nat × List Char) :=
  if byteLength (cs.take 4) < 4 then .error (.before [] .eofInString)
  else
    match cs.take 4 |>.mapM hexValue? with
    | some [a, b, c, d] => .ok (((a * 16 + b) * 16 + c) * 16 + d, cs.drop 4)
    | _ => .error ⟨.badEscape, byteLength cs - 4⟩

def isLead (n : Nat) : Bool := 0xd800 ≤ n && n ≤ 0xdbff

def isTrail (n : Nat) : Bool := 0xdc00 ≤ n && n ≤ 0xdfff

def expectInPair (sign : Char) (cs : List Char) : Except Fault (List Char) :=
  match cs with
  | [] => .error (.before [] .eofInString)
  | c :: rest => if c == sign then .ok rest else .error (.behind cs .halfPair)

/-- The character of an escape by number. Characters beyond U+FFFF are written as pairs. -/
def readNumbered (cs : List Char) : Except Fault (Char × List Char) := do
  let (n, rest) ← readHex cs
  if isTrail n then throw (.before rest .lonePart)
  else if isLead n then
    let rest ← expectInPair '\\' rest
    let rest ← expectInPair 'u' rest
    let (m, rest) ← readHex rest
    if isTrail m then
      return (Char.ofNat (0x10000 + (n - 0xd800) * 0x400 + (m - 0xdc00)), rest)
    else throw (.before rest .lonePart)
  else return (Char.ofNat n, rest)

def readEscape (cs : List Char) : Except Fault (Char × List Char) :=
  match cs with
  | [] => .error (.before [] .eofInString)
  | '"' :: rest => .ok ('"', rest)
  | '\\' :: rest => .ok ('\\', rest)
  | '/' :: rest => .ok ('/', rest)
  | 'b' :: rest => .ok ('\x08', rest)
  | 'f' :: rest => .ok ('\x0c', rest)
  | 'n' :: rest => .ok ('\n', rest)
  | 'r' :: rest => .ok ('\r', rest)
  | 't' :: rest => .ok ('\t', rest)
  | 'u' :: rest => readNumbered rest
  | _ => .error (.behind cs .badEscape)

/-- The characters up to the closing quote. Every step takes at least one character, so the length of
the text bounds the steps. -/
def readChars : Nat → List Char → List Char → Except Fault (List Char × List Char)
  | 0, _, _ => .error (.before [] .eofInString)
  | fuel + 1, acc, cs =>
    match cs with
    | [] => .error (.before [] .eofInString)
    | '"' :: rest => .ok (acc.reverse, rest)
    | '\\' :: rest =>
      match readEscape rest with
      | .ok (c, rest) => readChars fuel (c :: acc) rest
      | .error fault => .error fault
    | c :: rest =>
      if c.toNat < 0x20 then .error (.before rest .controlCharacter)
      else readChars fuel (c :: acc) rest

def readString (cs : List Char) : Except Fault (String × List Char) :=
  match readChars (cs.length + 1) [] cs with
  | .ok (chars, rest) => .ok (String.ofList chars, rest)
  | .error fault => .error fault

/-! ## Tokens -/

def readWord : List Char → List Char → Except Fault (List Char)
  | [], cs => .ok cs
  | w :: ws, cs =>
    match cs with
    | [] => .error (.before [] .eofInValue)
    | c :: rest => if c == w then readWord ws rest else .error (.behind cs .wordExpected)

def wordToken (kind : TokenKind) (letters : String) (start rest : List Char) : Token :=
  match readWord letters.toList rest with
  | .ok rest => ⟨kind, start, rest⟩
  | .error fault => ⟨.brokenScalar fault, start, []⟩

def numberToken (isNegative : Bool) (start cs : List Char) : Token :=
  match readMagnitude isNegative cs with
  | .ok (n, rest) => ⟨.number n, start, rest⟩
  | .error fault => ⟨.brokenScalar fault, start, []⟩

def readToken (cs : List Char) : Token :=
  match cs with
  | [] => ⟨.eof, [], []⟩
  | c :: rest =>
    match c with
    | '\x7b' => ⟨.leftBrace, cs, rest⟩
    | '\x7d' => ⟨.rightBrace, cs, rest⟩
    | '[' => ⟨.leftBracket, cs, rest⟩
    | ']' => ⟨.rightBracket, cs, rest⟩
    | ':' => ⟨.colon, cs, rest⟩
    | ',' => ⟨.comma, cs, rest⟩
    | 'n' => wordToken .null "ull" cs rest
    | 't' => wordToken (.boolean true) "rue" cs rest
    | 'f' => wordToken (.boolean false) "alse" cs rest
    | '"' =>
      match readString rest with
      | .ok (s, rest) => ⟨.string s, cs, rest⟩
      | .error fault => ⟨.brokenString fault, cs, []⟩
    | '-' => numberToken true cs rest
    | c => if c.isDigit then numberToken false cs cs else ⟨.other, cs, []⟩

def TokenKind.isLast : TokenKind → Bool
  | brokenString _ | brokenScalar _ | other | eof => true
  | _ => false

/-- Tokens up to the end of the text or to the first text that is no token. -/
def readTokens : Nat → List Char → List Token
  | 0, _ => []
  | fuel + 1, cs =>
    let t := readToken (cs.dropWhile isBlank)
    if t.kind.isLast then [t] else t :: readTokens fuel t.rest

def tokens (text : List Char) : List Token := readTokens (text.length + 1) text

end Census.Json
