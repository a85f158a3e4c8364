import Census.Script.Grammar.Pattern
/-!
Parameters, bodies and functions.
-/

namespace Census.Script

open Census.Text (Pos)
open Parse

def plainParameter (g : Grammar) (ctx : Context) : Parse Node := do
  let start ← here
  let target ← g.pattern ctx false
  if ← eat .assign then
    let value ← g.assignment ctx
    return .mk .withDefault (← spanFrom start) [target, value]
  else return target

/-- The parameter after a rest mark. In some lists it is reported with a default, in others a default
is not part of the list. -/
def restParameter (g : Grammar) (ctx : Context) (readsDefault : Bool) (start : Pos) :
    Parse Node := do
  let target ← g.pattern ctx false
  if readsDefault && (← isPunct .assign) then
    bump
    let value ← g.assignment ctx
    report target.start .restWithInitializer
    let inner := Node.mk .withDefault (← spanFrom start) [target, value]
    return .mk .rest (← spanFrom start) [inner]
  else return .mk .rest (← spanFrom start) [target]

/-- Parameters up to the closing parenthesis, which is left to be read. -/
def parameterList (g : Grammar) (ctx : Context) (restReadsDefault : Bool) :
    Parse (List Node) :=
  repeating (([] : List Node), (none : Option Pos)) fun (acc, restAt) => do
    if ← isPunct .rparen then return .inr acc.reverse
    else
      match restAt with
      | some pos => report pos .restNotLast
      | none => pure ()
      let start ← here
      let isRest ← eat .ellipsis
      let item ←
        if isRest then restParameter g ctx restReadsDefault start else plainParameter g ctx
      if !(← isPunct .rparen) then
        expect .comma
        if isRest && (← isPunct .rparen) then report (← previous).start .commaAfterRest
      return .inl (item :: acc, if isRest then some start else restAt)

/-- Statements up to the closing brace. A text that ends before the brace is reported. -/
def statementsToBrace (g : Grammar) (ctx : Context) : Parse (List Node) :=
  repeating [] fun acc => do
    if ← isEof then
      reportHere (.expected Punct.rbrace.spelling Kind.eof.label)
      return .inr acc.reverse
    else if ← eat .rbrace then return .inr acc.reverse
    else return .inl ((← g.statement ctx true) :: acc)

def block (g : Grammar) (ctx : Context) : Parse Node := do
  let start ← here
  expect .lbrace
  let statements ← statementsToBrace g ctx
  return .mk .block (← spanFrom start) statements

/-- The context of a body. Loops, switches and labels around a function are not seen from inside. -/
def Context.ofBody (ctx : Context) (isAsync isGenerator isArrow : Bool) : Context :=
  { ctx with
    inAsync := isAsync
    inGenerator := isGenerator
    inFunction := true
    inStaticBlock := false
    breakAllowed := false
    continueAllowed := false
    inOrdinaryFunction := ctx.inOrdinaryFunction || !isArrow
    labels := [] }

/-- A statement that is a string and nothing else. -/
def isDirective : Node → Bool
  | .mk .expressionStatement _ [.mk (.stringLiteral _) _ _] => true
  | _ => false

/-- The directive for strict code. It is twelve characters long, quotes included, so an escape in it
or a parenthesis around it makes it another statement. -/
def isStrictDirective : Node → Bool
  | .mk .expressionStatement _ [.mk (.stringLiteral value) span _] =>
    value == "use strict" && span.start - span.stop == 12
  | _ => false

/-- A function with patterns, defaults or a rest among its parameters must not ask for strict
code. -/
def checkStrictDirective (params statements : List Node) : Parse Unit := do
  if !isPlainParameterList params then
    match (statements.takeWhile isDirective).find? isStrictDirective with
    | some directive => report directive.start .strictDirective
    | none => pure ()

def functionBody (g : Grammar) (ctx : Context) (isAsync isGenerator isArrow : Bool)
    (params : List Node) : Parse Node := do
  let body ← block g (ctx.ofBody isAsync isGenerator isArrow)
  checkStrictDirective params body.parts
  return body

/-- The body of an arrow function: a block or an expression. -/
def arrowBody (g : Grammar) (ctx : Context) (isAsync : Bool) (params : List Node) :
    Parse Node := do
  if ← isPunct .lbrace then functionBody g ctx isAsync false true params
  else g.assignment (ctx.ofBody isAsync false true)

/-- Which parameters a function may have. -/
inductive Arity where
  | any
  | getter (key : Pos)
  | setter (key : Pos)
  | constructor

def checkArity (arity : Arity) (params : List Node) : Parse Unit := do
  match arity with
  | .getter key => if !params.isEmpty then report key .getterWithParameter
  | .setter key =>
    if params.length != 1 then report key .setterArity
    match params with
    | p :: _ => if p.construct == .rest then report p.start .restInSetter
    | [] => pure ()
  | _ => pure ()

def parametersAndBody (g : Grammar) (ctx : Context) (isAsync isGenerator : Bool)
    (arity : Arity) : Parse (List Node) := do
  let ctx := { ctx with inAsync := isAsync, inGenerator := isGenerator }
  expect .lparen
  let restReadsDefault :=
    match arity with
    | .constructor => false
    | _ => true
  let params ←
    parameterList g { ctx with inParameters := true, inFunction := false } restReadsDefault
  checkArity arity params
  expect .rparen
  let body ← functionBody g ctx isAsync isGenerator false params
  return params ++ [body]

/-- A method's parameters and body. Inside, members of the parent class are within reach. -/
def methodRest (g : Grammar) (ctx : Context) (isAsync isGenerator : Bool) (arity : Arity) :
    Parse (List Node) :=
  parametersAndBody g { ctx with directSuper := true, inField := false } isAsync isGenerator arity

/-- The word `function` and the star of a generator. -/
def functionHead : Parse Bool := do
  bump
  eat .star

def functionRest (g : Grammar) (ctx : Context) (isAsync isGenerator : Bool) : Parse (List Node) :=
  parametersAndBody g { ctx with directSuper := false, inField := false } isAsync isGenerator .any

/-- Passes over the word `async` if the current token is one that is followed by a function on the
same line. -/
def atAsyncFunction : Parse Bool := do
  if ← isContextual .async then
    let next ← peek
    return next.kind == .keyword .function && !next.afterBreak
  else return false

/-- A function with its name, and whether it is marked as a generator or with `async`. -/
def functionDeclaration (g : Grammar) (ctx : Context) (start : Pos) (isAsync : Bool) :
    Parse (Node × Bool) := do
  let isGenerator ← functionHead
  let ident ← bindingName ctx false
  let rest ← functionRest g ctx isAsync isGenerator
  let node :=
    Node.mk (.functionDeclaration ident.name) (← spanFrom start) (ident.node :: rest)
  return (node, isAsync || isGenerator)

def asyncFunctionDeclaration (g : Grammar) (ctx : Context) : Parse Node := do
  let start ← here
  bump
  return (← functionDeclaration g ctx start true).1

def functionExpression (g : Grammar) (ctx : Context) (start : Pos) (isAsync : Bool) :
    Parse Node := do
  let isGenerator ← functionHead
  let ident ← optionalBindingName ctx false
  let rest ← functionRest g ctx isAsync isGenerator
  return .mk (.functionExpression (ident.map Ident.name)) (← spanFrom start)
    ((ident.map Ident.node).toList ++ rest)

end Census.Script
