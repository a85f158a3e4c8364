import Census.Callable.Basic
/-!
The callables of a module, each before those inside it. A function or an arrow function counts if it
is the initial value of a variable; parentheses around it do not matter. Functions elsewhere, such
as arguments of calls and values of objects, do not count, but what is inside them does.
-/

namespace Census

open Census.Script (Node)

/-- The name of a class member with a given key. Computed keys have none. -/
def keyName? (key : Node) : Option String :=
  match key.construct with
  | .identifier name => some name.text
  | .privateName name => some name.text
  | .stringLiteral value => some value
  | .numberLiteral value => some value.text
  | _ => none

/-- The callable that an initial value is for the variable that it is bound to. -/
def boundCallable (name : String) : Node → List Callable
  | .mk .parenthesized _ [inner] => boundCallable name inner
  | .mk (.functionExpression _) span _ => [⟨some name, span.start, .functionExpression⟩]
  | .mk (.arrow _) span _ => [⟨some name, span.start, .arrowFunction⟩]
  | _ => []

/-- The callable that a default export declares. -/
def declaredCallable : Node → List Callable
  | .mk (.functionExpression name) span _ =>
    [⟨name.map (·.text), span.start, .functionDeclaration⟩]
  | _ => []

/-- The callables that a node itself stands for. -/
def ownCallables : Node → List Callable
  | .mk (.functionDeclaration name) span _ => [⟨some name.text, span.start, .functionDeclaration⟩]
  | .mk .exportDefaultDeclaration _ [inner] => declaredCallable inner
  | .mk (.classMember role) span (key :: _) =>
    [⟨keyName? key, span.start, .classMember role⟩]
  | .mk .declarator _ [target, value] =>
    match target.name? with
    | some name => boundCallable name.text value
    | none => []
  | _ => []

mutual

/-- The callables in a node, in the order in which they are visited. -/
def callables : Node → List Callable
  | .mk construct span parts => ownCallables (.mk construct span parts) ++ callablesOfAll parts

def callablesOfAll : List Node → List Callable
  | [] => []
  | n :: ns => callables n ++ callablesOfAll ns

end

def discover (m : Script.Module) : List Callable := callablesOfAll m.items

def callableRecords (file : String) (text : List Char) (m : Script.Module) : List CallableRecord :=
  (discover m).map (·.record file text)

end Census
