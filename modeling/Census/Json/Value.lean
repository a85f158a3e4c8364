import Census.Json.Token
/-!
JSON values, read from the tokens of a text. The members of an object are sorted by key, and of two
members with one key the later counts. Values nest less than 128 deep.
-/

namespace Census.Json

inductive Value where
  | null
  | boolean (b : Bool)
  | number (n : Number)
  | string (s : String)
  | array (items : List Value)
  | object (members : List (String × Value))
  deriving Repr

/-- Puts a member where its key sorts. -/
def insertMember (key : String) (value : Value) : List (String × Value) → List (String × Value)
  | [] => [(key, value)]
  | (k, v) :: more =>
    if key < k then (key, value) :: (k, v) :: more
    else if key == k then (key, value) :: more
    else (k, v) :: insertMember key value more

def Value.member? (key : String) : Value → Option Value
  | object members => members.lookup key
  | _ => none

/-! ## Punctuation -/

/-- The first token. A text without more tokens is at its end. -/
def headToken (ts : List Token) : Token := ts.headD ⟨.eof, [], []⟩

def Token.fault (t : Token) (cause : Cause) : Fault := .behind t.start cause

def Token.noValue (t : Token) : Fault :=
  match t.kind with
  | .brokenString fault | .brokenScalar fault => fault
  | .eof => t.fault .eofInValue
  | _ => t.fault .valueExpected

/-- The tokens of the next element of a list, unless the list ends here. -/
def nextElement (isFirst : Bool) (ts : List Token) : Except Fault (Option (List Token)) :=
  let t := headToken ts
  match t.kind with
  | .rightBracket => .ok none
  | .eof => .error (t.fault .eofInList)
  | .comma =>
    if isFirst then .ok (some ts)
    else
      let next := headToken ts.tail
      match next.kind with
      | .rightBracket => .error (next.fault .trailingComma)
      | .eof => .error (next.fault .eofInValue)
      | _ => .ok (some ts.tail)
  | _ => if isFirst then .ok (some ts) else .error (t.fault .listEndExpected)

def readKey (ts : List Token) : Except Fault (String × List Token) :=
  let t := headToken ts
  match t.kind with
  | .string key => .ok (key, ts.tail)
  | .brokenString fault => .error fault
  | _ => .error (t.fault .keyExpected)

def nextKey (isFirst : Bool) (ts : List Token) : Except Fault (Option (String × List Token)) :=
  let t := headToken ts
  match t.kind with
  | .rightBrace => .ok none
  | .eof => .error (t.fault .eofInObject)
  | .comma =>
    if isFirst then .error (t.fault .keyExpected)
    else
      let next := headToken ts.tail
      match next.kind with
      | .rightBrace => .error (next.fault .trailingComma)
      | .eof => .error (next.fault .eofInValue)
      | _ => some <$> readKey ts.tail
  | _ => if isFirst then some <$> readKey ts else .error (t.fault .objectEndExpected)

def expectColon (ts : List Token) : Except Fault (List Token) :=
  let t := headToken ts
  match t.kind with
  | .colon => .ok ts.tail
  | .eof => .error (t.fault .eofInObject)
  | _ => .error (t.fault .colonExpected)

def expectEnd (ts : List Token) : Except Fault Unit :=
  let t := headToken ts
  match t.kind with
  | .eof => .ok ()
  | _ => .error (t.fault .trailingCharacters)

/-! ## Values -/

/-- One more than the depth to which values may nest. -/
def depthLimit : Nat := 128

mutual

/-- A value, given a bound on the steps and the number of levels it may still open, and the tokens
after it. -/
def readValue : Nat → Nat → List Token → Except Fault (Value × List Token)
  | 0, _, ts => .error (headToken ts).noValue
  | fuel + 1, levels, ts =>
    let t := headToken ts
    match t.kind with
    | .null => .ok (.null, ts.tail)
    | .boolean b => .ok (.boolean b, ts.tail)
    | .number n => .ok (.number n, ts.tail)
    | .string s => .ok (.string s, ts.tail)
    | .leftBracket =>
      match levels with
      | 0 => .error (t.fault .tooDeep)
      | levels + 1 => do
        let (items, ts) ← readItems fuel levels true ts.tail
        return (.array items, ts)
    | .leftBrace =>
      match levels with
      | 0 => .error (t.fault .tooDeep)
      | levels + 1 => do
        let (members, ts) ← readMembers fuel levels true [] ts.tail
        return (.object members, ts)
    | _ => .error t.noValue

def readItems : Nat → Nat → Bool → List Token → Except Fault (List Value × List Token)
  | 0, _, _, ts => .error (headToken ts).noValue
  | fuel + 1, levels, isFirst, ts => do
    match ← nextElement isFirst ts with
    | none => return ([], ts.tail)
    | some ts =>
      let (item, ts) ← readValue fuel levels ts
      let (items, ts) ← readItems fuel levels false ts
      return (item :: items, ts)

/-- The members of an object up to the closing brace, added to those before them. -/
def readMembers : Nat → Nat → Bool → List (String × Value) → List Token →
    Except Fault (List (String × Value) × List Token)
  | 0, _, _, _, ts => .error (headToken ts).noValue
  | fuel + 1, levels, isFirst, members, ts => do
    match ← nextKey isFirst ts with
    | none => return (members, ts.tail)
    | some (key, ts) =>
      let ts ← expectColon ts
      let (value, ts) ← readValue fuel levels ts
      readMembers fuel levels false (insertMember key value members) ts

end

/-- The value that the tokens of a whole text stand for. Every step passes over a token or ends a
list or an object, so twice the number of tokens bounds the steps. -/
def Value.ofTokens (ts : List Token) : Except Fault Value := do
  let (value, ts) ← readValue (2 * ts.length + 2) (depthLimit - 1) ts
  expectEnd ts
  return value

def Value.read (text : List Char) : Except Error Value :=
  match Value.ofTokens (tokens text) with
  | .ok value => .ok value
  | .error fault => .error (fault.inText text)

end Census.Json
