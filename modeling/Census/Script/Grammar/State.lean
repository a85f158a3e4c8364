import Census.Script.Lexeme.Next
import Census.Script.Tree
/-!
Reading a script token by token. A reader either gives a result or stops at a fault; in both cases
the state it leaves is kept, so that reading can go on after a fault where the grammar says so.
Faults that do not stop the reader are collected on the way.
-/

namespace Census.Script

open Census.Text (Pos)

structure State where
  token : Token
  /-- The characters after the token. -/
  cursor : Cursor
  /-- The token after this one, if it has been looked at. -/
  ahead : Option Lexed
  previous : Token
  /-- Newest first. -/
  faults : List Fault
  /-- Faults of the first token that count only if there are no others, in the order found. -/
  postponed : List Fault
  /-- Where a token stood that may open an arrow function. -/
  arrowStart : Option Pos

abbrev Parse := EStateM Fault State

namespace Parse

def token : Parse Token := return (← get).token

def kind : Parse Kind := return (← get).token.kind

def here : Parse Pos := return (← get).token.start

def afterBreak : Parse Bool := return (← get).token.afterBreak

def previous : Parse Token := return (← get).previous

/-- From `start` to the end of the token passed last. -/
def spanFrom (start : Pos) : Parse Span := return ⟨start, (← get).previous.stop⟩

def bump : Parse Unit := modify fun s =>
  match s.ahead with
  | some next =>
    { s with token := next.token, cursor := next.cursor, ahead := none, previous := s.token }
  | none =>
    let next := s.cursor.next false
    { s with token := next.token, cursor := next.cursor, previous := s.token
             faults := next.faults.reverse ++ s.faults }

def peek : Parse Token := do
  let s ← get
  match s.ahead with
  | some next => return next.token
  | none =>
    let next := s.cursor.next false
    set { s with ahead := some next, faults := next.faults.reverse ++ s.faults }
    return next.token

/-- Reads the current token again in another way. -/
def reread (read : List Char → Pos → Lexeme) : Parse Unit := modify fun s =>
  let source := s.token.source
  let next := (read source.rest source.pos).toLexed source s.token.afterBreak []
  { s with token := next.token, cursor := next.cursor, ahead := none
           faults := next.faults.reverse ++ s.faults }

def addFault (pos : Pos) (cause : Cause) : Parse Unit :=
  modify fun s => { s with faults := ⟨pos, cause⟩ :: s.faults }

/-- Reports a fault and reads on. Where no token can be read, that is reported first. -/
def report (pos : Pos) (cause : Cause) : Parse Unit := do
  match ← kind with
  | .broken fault =>
    bump
    addFault fault.pos fault.cause
    addFault pos cause
  | _ => addFault pos cause

def failAt {α : Type} (pos : Pos) (cause : Cause) : Parse α := do
  match ← kind with
  | .broken fault =>
    bump
    report fault.pos fault.cause
    throw ⟨pos, cause⟩
  | _ => throw ⟨pos, cause⟩

def fail {α : Type} (cause : Cause) : Parse α := do failAt (← here) cause

/-- Stops because another token has to stand here. -/
def unexpected {α : Type} (choices : String) : Parse α := do
  fail (.unexpected (← kind).label choices)

def reportHere (cause : Cause) : Parse Unit := do report (← here) cause

def failBroken {α : Type} (fault : Fault) : Parse α := do
  bump
  throw fault

/-- Runs a reader and keeps its fault, if any, as a value. -/
def attempt {α : Type} (p : Parse α) : Parse (Except Fault α) :=
  tryCatch (Except.ok <$> p) fun fault => pure (.error fault)

def isPunct (p : Punct) : Parse Bool := return (← kind) == .punct p

def isKeyword (w : Keyword) : Parse Bool := return (← kind) == .keyword w

def Kind.isContextual (k : Kind) (w : Contextual) : Bool :=
  match k with
  | .contextual v _ => v == w
  | _ => false

def isContextual (w : Contextual) : Parse Bool := return Kind.isContextual (← kind) w

def isEof : Parse Bool := return (← kind) == .eof

def eatIf (test : Parse Bool) : Parse Bool := do
  if ← test then
    bump
    return true
  else return false

def eat (p : Punct) : Parse Bool := eatIf (isPunct p)

def eatKeyword (w : Keyword) : Parse Bool := eatIf (isKeyword w)

def eatContextual (w : Contextual) : Parse Bool := eatIf (isContextual w)

def expectIf (test : Parse Bool) (what : String) : Parse Unit := do
  if ← test then bump
  else fail (.expected what (← kind).label)

def expect (p : Punct) : Parse Unit := expectIf (isPunct p) p.spelling

def expectKeyword (w : Keyword) : Parse Unit := expectIf (isKeyword w) w.spelling

def expectContextual (w : Contextual) : Parse Unit := expectIf (isContextual w) w.spelling

/-- A statement may end here without a semicolon. -/
def atStatementEnd : Parse Bool := do
  match ← kind with
  | .punct .semi | .punct .rbrace | .eof => return true
  | _ => afterBreak

/-- The end of a statement, with its semicolon if there is one. -/
def eatStatementEnd : Parse Bool := do
  if ← eat .semi then return true
  else atStatementEnd

def expectStatementEnd : Parse Unit := do
  if ← eatStatementEnd then return
  else fail (.expected ";" (← kind).label)

/-- Repeats a step until it gives a result. The bound is the number of characters that are left, as
each step that goes on passes over a token. -/
def repeatFrom {σ α : Type} (step : σ → Parse (σ ⊕ α)) : Nat → σ → Parse α
  | 0, _ => fail .endOfText
  | fuel + 1, s => do
    match ← step s with
    | .inl next => repeatFrom step fuel next
    | .inr result => return result

def repeating {σ α : Type} (init : σ) (step : σ → Parse (σ ⊕ α)) : Parse α := do
  repeatFrom step ((← here) + 2) init

/-- Collects what `item` reads until `done` holds. -/
def collectUntil (done : Parse Bool) (item : Parse Node) : Parse (List Node) :=
  repeating [] fun acc => do
    if ← done then return .inr acc.reverse
    else return .inl ((← item) :: acc)

end Parse

end Census.Script
