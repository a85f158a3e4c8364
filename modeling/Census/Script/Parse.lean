import Census.Script.Grammar.Module
/-!
Reading a whole script. The grammar refers to itself through a table, and the table of one level
refers to the table of the level below. A reader that goes down passes over a token within a few
steps, so the number of characters bounds the levels.
-/

namespace Census.Script

open Census.Text (Pos)
open Parse

/-- The grammar with a bound on how deep it goes. -/
def Grammar.level : Nat → Grammar
  | 0 =>
    { assignment := fun _ => fail .endOfText
      unary := fun _ => fail .endOfText
      binaryTail := fun _ _ _ => fail .endOfText
      leftHand := fun _ => fail .endOfText
      construction := fun _ => fail .endOfText
      pattern := fun _ _ => fail .endOfText
      asPattern := fun _ _ _ => fail .endOfText
      statement := fun _ _ => fail .endOfText }
  | n + 1 =>
    { assignment := fun ctx => assignmentExpression (level n) ctx
      unary := fun ctx => unaryExpression (level n) ctx
      binaryTail := fun ctx left tightness => Script.binaryTail (level n) ctx left tightness
      leftHand := fun ctx => Script.leftHand (level n) ctx
      construction := fun ctx => Script.construction (level n) ctx
      pattern := fun ctx refusesLet => bindingPattern (level n) ctx refusesLet
      asPattern := fun ctx use node => expressionAsPattern (level n) ctx use node
      statement := fun ctx declares => statementNode (level n) ctx declares }

/-- The state before the first token. Faults of strict code before or in the first token count only
if nothing else is wrong. -/
def State.start (c : Cursor) : State :=
  let first := c.next true
  let token := { first.token with afterBreak := false }
  let postponed := first.faults.filter fun fault => fault.cause.isModuleRule
  let faults := first.faults.filter fun fault => !fault.cause.isModuleRule
  { token := token, cursor := first.cursor, ahead := none, previous := token
    faults := faults.reverse, postponed := postponed, arrowStart := none }

/-- The items of a module from a state, and the fault that keeps them from being one. -/
def readItems (s : State) : Except Fault (List Node) :=
  match (moduleItems (.level (8 * s.token.start + 8)) {}).run s with
  | .error fault _ => .error fault
  | .ok items final =>
    match final.faults.getLast?.or final.postponed.head? with
    | some fault => .error fault
    | none => .ok items

/-- A text without the mark that may stand before it. -/
def withoutMark : List Char → List Char
  | '\ufeff' :: cs => cs
  | cs => cs

def Module.read (text : List Char) : Except Fault Module := do
  let items ← readItems (.start (Cursor.ofText (withoutMark text)).skipHashbang)
  return ⟨items⟩

structure ParseError where
  file : String
  line : UInt32
  message : String
  deriving DecidableEq, Repr

def ParseError.display (e : ParseError) : String :=
  e.file ++ ":" ++ toString e.line.toNat ++ ": " ++ e.message

def Fault.inFile (file : String) (text : List Char) (fault : Fault) : ParseError where
  file := file
  line := .ofNat (Text.lineOf text fault.pos)
  message := fault.cause.message

def parse (file : String) (text : List Char) : Except ParseError Module :=
  match Module.read text with
  | .ok m => .ok m
  | .error fault => .error (fault.inFile file text)

end Census.Script
