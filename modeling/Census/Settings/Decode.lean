import Census.Json.Value
import Census.Settings.Basic
/-!
Settings in JSON: an object with the members `ignore` and `jobs`, or a list of the two. They are read
from the tokens of a text, where the first fault in the order of the text is reported with its place,
or from a value that is a part of a larger one.
-/

namespace Census.Settings

open Census.Json (Cause Error Fault Found Number Token Value expectColon expectEnd headToken
  nextElement nextKey tokens)

def wholeWanted : String := "struct CallmapConfig"

def listWanted : String := "a sequence"

def partWanted : String := "a string"

def jobsWanted : String := "usize"

def fieldNames : String := "`ignore` or `jobs`"

/-! ## From a text -/

/-- What is wrong with a token that does not stand for the wanted sort of value. -/
def misfit (wanted : String) (t : Token) : Fault :=
  match t.kind with
  | .null => .before t.rest (.wrongType .null wanted)
  | .boolean b => .before t.rest (.wrongType (.boolean b) wanted)
  | .number n => .before t.rest (.wrongType (.number n) wanted)
  | .string s => .before t.rest (.wrongType (.string s) wanted)
  | .leftBracket => .before t.start (.wrongType .sequence wanted)
  | .leftBrace => .before t.start (.wrongType .map wanted)
  | _ => t.noValue

/-- A value that may be `null`. -/
def readOptional {α : Type} (read : List Token → Except Fault (α × List Token))
    (ts : List Token) : Except Fault (Option α × List Token) :=
  match (headToken ts).kind with
  | .null => .ok (none, ts.tail)
  | _ => do
    let (value, ts) ← read ts
    return (some value, ts)

def readJobs (ts : List Token) : Except Fault (UInt64 × List Token) :=
  let t := headToken ts
  match t.kind with
  | .number (.natural n) => .ok (.ofNat n, ts.tail)
  | .number (.negative n) =>
    .error (.before t.rest (.wrongValue (.number (.negative n)) jobsWanted))
  | _ => .error (misfit jobsWanted t)

def readPart (ts : List Token) : Except Fault (String × List Token) :=
  let t := headToken ts
  match t.kind with
  | .string s => .ok (s, ts.tail)
  | _ => .error (misfit partWanted t)

/-- The parts of a list up to its closing bracket. -/
def readParts : Nat → Bool → List Token → Except Fault (List String × List Token)
  | 0, _, ts => .error (headToken ts).noValue
  | fuel + 1, isFirst, ts => do
    match ← nextElement isFirst ts with
    | none => return ([], ts.tail)
    | some ts =>
      let (part, ts) ← readPart ts
      let (parts, ts) ← readParts fuel false ts
      return (part :: parts, ts)

def readIgnore (ts : List Token) : Except Fault (List String × List Token) :=
  let t := headToken ts
  match t.kind with
  | .leftBracket => readParts (ts.length + 1) true ts.tail
  | _ => .error (misfit listWanted t)

/-- The fault of a member that is not taken. If the object ends right behind the key, the place is
behind the object. -/
def refuseMember (cause : Cause) (ts : List Token) : Fault :=
  let t := headToken ts
  match t.kind with
  | .rightBrace => .before t.rest cause
  | _ => .before t.start cause

/-- The members of an object up to its closing brace, added to those before them. -/
def readFields : Nat → Bool → Option (Option (List String)) → Option (Option UInt64) →
    List Token → Except Fault (Settings × List Token)
  | 0, _, _, _, ts => .error (headToken ts).noValue
  | fuel + 1, isFirst, ignore, jobs, ts => do
    match ← nextKey isFirst ts with
    | none => return (⟨ignore.getD none, jobs.getD none⟩, ts.tail)
    | some ("ignore", ts) =>
      if ignore.isSome then throw (refuseMember (.duplicateField "ignore") ts)
      else
        let ts ← expectColon ts
        let (value, ts) ← readOptional readIgnore ts
        readFields fuel false (some value) jobs ts
    | some ("jobs", ts) =>
      if jobs.isSome then throw (refuseMember (.duplicateField "jobs") ts)
      else
        let ts ← expectColon ts
        let (value, ts) ← readOptional readJobs ts
        readFields fuel false ignore (some value) ts
    | some (name, ts) => throw (refuseMember (.unknownField name fieldNames) ts)

/-- An element of a list, if the list has one more. -/
def readElement {α : Type} (isFirst : Bool)
    (read : List Token → Except Fault (Option α × List Token)) (ts : List Token) :
    Except Fault (Option α × List Token) := do
  match ← nextElement isFirst ts with
  | none => return (none, ts)
  | some ts => read ts

def expectListEnd (ts : List Token) : Except Fault (List Token) :=
  let t := headToken ts
  match t.kind with
  | .rightBracket => .ok ts.tail
  | .comma =>
    let next := headToken ts.tail
    match next.kind with
    | .rightBracket => .error (next.fault .trailingComma)
    | _ => .error (next.fault .trailingCharacters)
  | .eof => .error (t.fault .eofInList)
  | _ => .error (t.fault .trailingCharacters)

def readPair (ts : List Token) : Except Fault (Settings × List Token) := do
  let (ignore, ts) ← readElement true (readOptional readIgnore) ts
  let (jobs, ts) ← readElement false (readOptional readJobs) ts
  let ts ← expectListEnd ts
  return (⟨ignore, jobs⟩, ts)

def ofTokens (ts : List Token) : Except Fault Settings := do
  let t := headToken ts
  let (settings, ts) ←
    match t.kind with
    | .leftBracket => readPair ts.tail
    | .leftBrace => readFields (ts.length + 1) true none none ts.tail
    | _ => .error (misfit wholeWanted t)
  expectEnd ts
  return settings

def read (text : List Char) : Except Error Settings :=
  match ofTokens (tokens text) with
  | .ok settings => .ok settings
  | .error fault => .error (fault.inText text)

/-! ## From a value -/

def found : Value → Found
  | .null => .null
  | .boolean b => .boolean b
  | .number n => .number n
  | .string s => .string s
  | .array _ => .sequence
  | .object _ => .map

def misfitValue {α : Type} (wanted : String) (v : Value) : Except Cause α :=
  .error (.wrongType (found v) wanted)

def optionalOfValue {α : Type} (ofValue : Value → Except Cause α) :
    Value → Except Cause (Option α)
  | .null => .ok none
  | v => some <$> ofValue v

def jobsOfValue : Value → Except Cause UInt64
  | .number (.natural n) => .ok (.ofNat n)
  | .number (.negative n) => .error (.wrongValue (.number (.negative n)) jobsWanted)
  | v => misfitValue jobsWanted v

def partOfValue : Value → Except Cause String
  | .string s => .ok s
  | v => misfitValue partWanted v

def ignoreOfValue : Value → Except Cause (List String)
  | .array items => items.mapM partOfValue
  | v => misfitValue listWanted v

def addField (s : Settings) (member : String × Value) : Except Cause Settings :=
  match member with
  | ("ignore", v) => do return { s with ignore := ← optionalOfValue ignoreOfValue v }
  | ("jobs", v) => do return { s with jobs := ← optionalOfValue jobsOfValue v }
  | (name, _) => .error (.unknownField name fieldNames)

def ofValue : Value → Except Cause Settings
  | .array [] => .ok .empty
  | .array [i] => do return ⟨← optionalOfValue ignoreOfValue i, none⟩
  | .array (i :: j :: more) => do
    let ignore ← optionalOfValue ignoreOfValue i
    let jobs ← optionalOfValue jobsOfValue j
    if more.isEmpty then return ⟨ignore, jobs⟩ else throw (.tooLong (more.length + 2))
  | .object members => members.foldlM addField .empty
  | v => misfitValue wholeWanted v

end Census.Settings
