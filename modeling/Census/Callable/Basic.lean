import Census.Script.Tree
/-!
Callables: the functions and class members that a script declares or binds to a name. A record says
in which file and on which line a callable starts.
-/

namespace Census

open Census.Script (MemberRole)

inductive CallableKind where
  | functionDeclaration
  | functionExpression
  | arrowFunction
  | classMember (role : MemberRole)
  deriving DecidableEq, Repr

def roleText : MemberRole → String
  | .construct => "constructor"
  | .method => "method"
  | .get => "get"
  | .set => "set"

def CallableKind.text : CallableKind → String
  | functionDeclaration => "FunctionDeclaration"
  | functionExpression => "FunctionExpression"
  | arrowFunction => "ArrowFunction"
  | classMember role => "ClassMethod (" ++ roleText role ++ ")"

def CallableKind.all : List CallableKind := [
  functionDeclaration, functionExpression, arrowFunction, classMember .construct,
  classMember .method, classMember .get, classMember .set]

def CallableKind.ofText? (s : String) : Option CallableKind := all.find? (·.text == s)

def anonymous : String := "<anonymous>"

/-- A callable where it stands in a script. -/
structure Callable where
  name : Option String
  start : Text.Pos
  kind : CallableKind
  deriving DecidableEq, Repr

structure CallableRecord where
  name : String
  file : String
  line : UInt32
  kind : CallableKind
  deriving DecidableEq, Repr

def CallableRecord.ofName (name : Option String) (file : String) (line : UInt32)
    (kind : CallableKind) : CallableRecord :=
  ⟨name.getD anonymous, file, line, kind⟩

def Callable.record (file : String) (text : List Char) (c : Callable) : CallableRecord :=
  .ofName c.name file (.ofNat (Text.lineOf text c.start)) c.kind

end Census
