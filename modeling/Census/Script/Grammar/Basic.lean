import Census.Script.Grammar.State
/-!
The context in which a piece of a script is read, and the grammar as a table of its recursive parts.
Every reader gets the table as a parameter and goes through it where the grammar is recursive, so
that no reader refers to itself.
-/

namespace Census.Script

open Census.Text (Pos)

structure Context where
  inAsync : Bool := false
  inGenerator : Bool := false
  inFunction : Bool := false
  inParameters : Bool := false
  inClass : Bool := false
  inField : Bool := false
  inStaticBlock : Bool := false
  /-- Members of the parent class may be reached with `super`. -/
  directSuper : Bool := false
  /-- Some enclosing function is not an arrow function. -/
  inOrdinaryFunction : Bool := false
  /-- The word `in` is an operator. -/
  inOperator : Bool := true
  breakAllowed : Bool := false
  continueAllowed : Bool := false
  inLoopHead : Bool := false
  inAwaitLoopHead : Bool := false
  labels : List String := []

/-- How an expression that turns out to be a pattern is used: bound to names or assigned to places,
and at the top or as an element of another pattern. -/
inductive PatternUse where
  | binding
  | bindingElement
  | assignment
  | assignmentElement
  deriving DecidableEq, Repr

def PatternUse.element : PatternUse → PatternUse
  | binding | bindingElement => bindingElement
  | assignment | assignmentElement => assignmentElement

structure Grammar where
  assignment : Context → Parse Node
  unary : Context → Parse Node
  /-- The operators after an operand that bind tighter than a level. -/
  binaryTail : Context → Node → Nat → Parse Node
  leftHand : Context → Parse Node
  construction : Context → Parse Node
  pattern : Context → Bool → Parse Node
  asPattern : Context → PatternUse → Node → Parse Node
  statement : Context → Bool → Parse Node

namespace Grammar

open Parse

variable (g : Grammar)

/-- One or more expressions with commas between them. -/
def expression (ctx : Context) : Parse Node := do
  let start ← here
  let first ← g.assignment ctx
  if ← isPunct .comma then
    let more ← repeating [] fun acc => do
      if ← eat .comma then return .inl ((← g.assignment ctx) :: acc)
      else return .inr acc.reverse
    return .mk .sequence (← spanFrom start) (first :: more)
  else return first

/-- An expression in which `in` is an operator. -/
def anyExpression (ctx : Context) : Parse Node := g.expression { ctx with inOperator := true }

def anyAssignment (ctx : Context) : Parse Node := g.assignment { ctx with inOperator := true }

end Grammar

open Parse

/-- A word of any sort as a name. -/
def anyName : Parse Ident := do
  match (← kind).name? with
  | some name =>
    let start ← here
    bump
    return ⟨name, ← spanFrom start⟩
  | none => fail .nameExpected

/-- A word that names something. Words reserved in modules are reported and taken. -/
def identifier (ctx : Context) : Parse Ident := do
  let start ← here
  let take (name : Name) : Parse Ident := do
    bump
    return ⟨name, ← spanFrom start⟩
  match ← kind with
  | .identifier name => take name
  | .contextual w name =>
    if w == .enum then
      let ident ← take name
      report start (.reservedName name.text)
      return ident
    else if w.isRefusedAsName then
      let ident ← take name
      addFault start (.reservedName name.text)
      return ident
    else if w == .await then
      failAt start (if ctx.inStaticBlock then .nameExpected else .awaitAsName)
    else take name
  | _ => fail .nameExpected

def bindingName (ctx : Context) (refusesLet : Bool) : Parse Ident := do
  if refusesLet && (← isContextual .«let») then
    unexpected "let is reserved in const, let, class declaration"
  else
    let ident ← identifier ctx
    if Node.isRestrictedName ident.name then addFault ident.start .restrictedName
    return ident

def optionalBindingName (ctx : Context) (refusesLet : Bool) : Parse (Option Ident) := do
  if (← kind).isReference then return some (← bindingName ctx refusesLet)
  else return none

def maybeBindingName (ctx : Context) (required refusesLet : Bool) : Parse (Option Ident) := do
  if required then return some (← bindingName ctx refusesLet)
  else optionalBindingName ctx refusesLet

/-- A name after `#`, which follows it at once. -/
def privateName : Parse Node := do
  let start ← here
  let hashEnd := (← token).stop
  bump
  if (← here) != hashEnd then failAt start .spaceAfterHash
  else
    let ident ← anyName
    return .leaf (.privateName ident.name) (← spanFrom start)

def stringLiteral? : Parse (Option Node) := do
  match ← kind with
  | .string value _ =>
    let start ← here
    bump
    return some (.leaf (.stringLiteral value) (← spanFrom start))
  | _ => return none

def propertyKey (g : Grammar) (ctx : Context) : Parse Node := do
  let start ← here
  let take (c : Construct) : Parse Node := do
    bump
    return .leaf c (← spanFrom start)
  match ← kind with
  | .string value _ => take (.stringLiteral value)
  | .number value => take (.numberLiteral value)
  | .bigint => take .bigintLiteral
  | .keyword _ | .contextual _ _ | .identifier _ => return (← anyName).node
  | .punct .lbracket =>
    bump
    let inner ← g.anyAssignment ctx
    expect .rbracket
    return .mk .computedKey (← spanFrom start) [inner]
  | _ => unexpected "identifier, string literal, numeric literal or [ for the computed key"

/-- Members between braces with commas between them, and the place of a comma after the last. -/
def braced (member : Parse Node) : Parse (List Node × Option Pos) := do
  expect .lbrace
  repeating ([], none) fun (acc, comma) => do
    if ← eat .rbrace then return .inr (acc.reverse, comma)
    else
      let m ← member
      if ← isPunct .rbrace then return .inl (m :: acc, comma)
      else
        expect .comma
        if ← isPunct .rbrace then return .inl (m :: acc, some (← previous).start)
        else return .inl (m :: acc, comma)

end Census.Script
