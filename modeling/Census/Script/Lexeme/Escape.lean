import Census.Script.Lexeme.Basic
/-!
Escapes in names, strings and templates. A reader gets the characters after the backslash.
-/

namespace Census.Script

/-- What an escape stands for, as code points, and how many characters it takes. -/
structure Escape where
  meaning : Except Cause (List Nat)
  used : Nat
  legacyOctal : Bool := false
  misplaced : Bool := false

def readUnicodeEscape : List Char → Escape
  | '{' :: cs =>
    let ds := readDigits 16 none cs
    let n := Digits.toNat 16 ds.values
    let used := ds.used + 1
    if ds.values.isEmpty then ⟨.error (.badEscape .braced), used, false, ds.misplaced⟩
    else if n ≥ UInt32.size then ⟨.error .unclosedEscape, used, false, ds.misplaced⟩
    else if n > 0x10ffff then ⟨.error (.badEscape .codePoint), used, false, ds.misplaced⟩
    else if (cs.drop ds.used).head? == some '}' then ⟨.ok [n], used + 1, false, ds.misplaced⟩
    else ⟨.error .unclosedEscape, used, false, ds.misplaced⟩
  | cs =>
    let ds := readDigits 16 (some 4) cs
    if ds.values.length == 4 then ⟨.ok [Digits.toNat 16 ds.values], ds.used, false, ds.misplaced⟩
    else ⟨.error (.badEscape .fourDigits), ds.used, false, ds.misplaced⟩

/-- The octal digits that continue an octal escape with the given first digit. -/
def readOctalEscape (first : Nat) (cs : List Char) : Escape :=
  let more := (cs.take (if first ≤ 3 then 2 else 1)).takeWhile fun c => (digitValue? 8 c).isSome
  let value := more.foldl (fun acc c => acc * 8 + ((digitValue? 8 c).getD 0)) first
  ⟨.ok [value], 1 + more.length, true, false⟩

/-- An escape of a string or a template. A line end after the backslash stands for nothing. -/
def readEscape : List Char → Escape
  | [] => { meaning := .error .openEscape, used := 0 }
  | '\r' :: '\n' :: _ => { meaning := .ok [], used := 2 }
  | c :: cs =>
    match c with
    | '\n' | '\r' | '\u2028' | '\u2029' => { meaning := .ok [], used := 1 }
    | 'n' => { meaning := .ok [0x0a], used := 1 }
    | 'r' => { meaning := .ok [0x0d], used := 1 }
    | 't' => { meaning := .ok [0x09], used := 1 }
    | 'b' => { meaning := .ok [0x08], used := 1 }
    | 'v' => { meaning := .ok [0x0b], used := 1 }
    | 'f' => { meaning := .ok [0x0c], used := 1 }
    | 'x' =>
      let ds := readDigits 16 (some 2) cs
      if ds.values.length == 2 then
        ⟨.ok [Digits.toNat 16 ds.values], ds.used + 1, false, ds.misplaced⟩
      else ⟨.error (.badEscape .twoDigits), ds.used + 1, false, ds.misplaced⟩
    | 'u' =>
      let e := readUnicodeEscape cs
      { e with used := e.used + 1 }
    | '0' =>
      if (cs.head?.bind (digitValue? 8)).isSome then readOctalEscape 0 cs
      else { meaning := .ok [0], used := 1 }
    | c =>
      match digitValue? 8 c with
      | some d => readOctalEscape d cs
      | none => { meaning := .ok [c.toNat], used := 1 }

def isLeadSurrogate (n : Nat) : Bool := 0xd800 ≤ n && n ≤ 0xdbff

def isTrailSurrogate (n : Nat) : Bool := 0xdc00 ≤ n && n ≤ 0xdfff

/-- The text of code points. Two surrogates that form a pair are one character, any other surrogate
becomes U+FFFD. -/
def textOfCodes (codes : List Nat) : String := go codes ""
where
  go : List Nat → String → String
    | a :: b :: rest, acc =>
      if isLeadSurrogate a && isTrailSurrogate b then
        go rest (acc.push (Char.ofNat (0x10000 + (a - 0xd800) * 0x400 + (b - 0xdc00))))
      else go (b :: rest) (push acc a)
    | [a], acc => push acc a
    | [], acc => acc
  push (acc : String) (n : Nat) : String :=
    acc.push (if isLeadSurrogate n || isTrailSurrogate n then '\ufffd' else Char.ofNat n)

end Census.Script
