import Census.Script.Grammar.Basic
/-!
Patterns: read as such where names are bound, and made from an expression where only what follows it
tells that it was a pattern.
-/

namespace Census.Script

open Census.Text (Pos)
open Parse

def patternElement (g : Grammar) (ctx : Context) : Parse Node := do
  let start ← here
  let target ← g.pattern ctx false
  if ← eat .assign then
    let value ← g.anyAssignment ctx
    return .mk .withDefault (← spanFrom start) [target, value]
  else return target

/-- A list of patterns in brackets. A rest element that is not the last is reported before each
element after it. -/
def arrayPattern (g : Grammar) (ctx : Context) : Parse Node := do
  let start ← here
  bump
  let elements ← repeating (([] : List Node), (none : Option Pos)) fun (acc, restAt) => do
    if (← isEof) || (← isPunct .rbracket) then return .inr acc.reverse
    else if ← eat .comma then return .inl (acc, restAt)
    else
      match restAt with
      | some pos => report pos .restElementNotLast
      | none => pure ()
      let itemStart ← here
      let isRest ← eat .ellipsis
      let (item, restAt) ← do
        if isRest then
          let target ← g.pattern ctx false
          let item := Node.mk .rest (← spanFrom itemStart) [target]
          pure (item, some itemStart)
        else pure (← patternElement g ctx, restAt)
      if !(← isPunct .rbracket) then
        expect .comma
        if isRest && (← isPunct .rbracket) then report (← previous).start .commaAfterRest
      return .inl (item :: acc, restAt)
  expect .rbracket
  return .mk .arrayPattern (← spanFrom start) elements

def patternMember (g : Grammar) (ctx : Context) : Parse Node := do
  let start ← here
  if ← eat .ellipsis then
    let target ← g.pattern ctx false
    return .mk .rest (← spanFrom start) [target]
  else
    let key ← propertyKey g ctx
    if ← eat .colon then
      let value ← patternElement g ctx
      return .mk .propertyPattern (← spanFrom start) [key, value]
    else if key.name?.isNone then unexpected "an identifier"
    else if ← eat .assign then
      let value ← g.anyAssignment ctx
      return .mk .shorthandPattern (← spanFrom start) [key, value]
    else return .mk .shorthandPattern (← spanFrom start) [key]

/-- A rest member stands last, without a comma after it, and takes a plain name. -/
def checkRestMembers (comma : Option Pos) : List Node → Parse Unit
  | [] => pure ()
  | [last] => do
    match last with
    | .mk .rest _ [target] =>
      if target.name?.isNone then failAt last.start .restNotName
      else
        match comma with
        | some pos => report pos .commaAfterRest
        | none => pure ()
    | _ => pure ()
  | m :: more => do
    if m.construct == .rest then report m.start .restElementNotLast
    checkRestMembers comma more

def objectPattern (g : Grammar) (ctx : Context) : Parse Node := do
  let start ← here
  let (members, comma) ← braced (patternMember g ctx)
  checkRestMembers comma members
  return .mk .objectPattern (← spanFrom start) members

/-- A name or a pattern in brackets or braces. -/
def bindingPattern (g : Grammar) (ctx : Context) (refusesLet : Bool) : Parse Node := do
  match ← kind with
  | .keyword _ | .contextual _ _ | .identifier _ => return (← bindingName ctx refusesLet).node
  | .punct .lbracket => arrayPattern g ctx
  | .punct .lbrace => objectPattern g ctx
  | _ => unexpected "yield, an identifier, [ or \x7b"

/-- Reports an expression that strict code must not assign to. -/
def checkTarget (n : Node) : Parse Unit := do
  if !n.isSimpleTarget then report n.start .badAssignmentTarget

/-- Reports the expression under a rest mark if it is an assignment. -/
def checkRestValue (pos : Pos) (n : Node) : Parse Unit := do
  match n.construct with
  | .assignment _ => report pos .restWithInitializer
  | _ => pure ()

def reportComma (comma : Option Pos) : Parse Unit := do
  match comma with
  | some pos => report pos .commaAfterRest
  | none => pure ()

/-- The constructs that are reported as targets, and not as patterns, when they are no good. -/
def isTargetLike (c : Construct) : Bool :=
  match c with
  | .member | .superMember | .call | .construction | .identifier _ | .functionExpression _
  | .classExpression | .parenthesized | .template | .stringLiteral _ | .numberLiteral _
  | .bigintLiteral | .constantLiteral | .regExpLiteral => true
  | _ => false

/-- A member of an object made into a member of a pattern. -/
def memberAsPattern (g : Grammar) (ctx : Context) (use : PatternUse) (comma : Option Pos)
    (isLast : Bool) (m : Node) : Parse Node := do
  match m with
  | .mk .shorthand span parts => return .mk .shorthandPattern span parts
  | .mk .shorthandWithValue span parts => return .mk .shorthandPattern span parts
  | .mk .property span [key, value] =>
    return .mk .propertyPattern span [key, ← g.asPattern ctx use.element value]
  | .mk .spread span [value] =>
    if isLast then reportComma comma else report span.start .restElementNotLast
    let target ←
      if use.element == .bindingElement then
        if value.name?.isSome then pure value
        else
          report span.start .restNotName
          pure (.leaf .invalid span)
      else g.asPattern ctx use.element value
    if target.construct == .withDefault then report span.start .restWithInitializer
    return .mk .rest span [target]
  | _ => failAt m.start .notPattern

def membersAsPattern (g : Grammar) (ctx : Context) (use : PatternUse) (comma : Option Pos) :
    List Node → Parse (List Node)
  | [] => return []
  | m :: more => do
    let first ← memberAsPattern g ctx use comma more.isEmpty m
    return first :: (← membersAsPattern g ctx use comma more)

def elementsAsPattern (g : Grammar) (ctx : Context) (use : PatternUse) (comma : Option Pos) :
    List Node → Parse (List Node)
  | [] => return []
  | m :: more => do
    match m with
    | .mk .hole _ _ => elementsAsPattern g ctx use comma more
    | .mk .spread span [value] =>
      if more.isEmpty then
        checkRestValue span.start value
        reportComma comma
        let target ← g.asPattern ctx use.element value
        return [.mk .rest span [target]]
      else
        report span.start .restElementNotLast
        elementsAsPattern g ctx use comma more
    | _ =>
      let first ← g.asPattern ctx use.element m
      return first :: (← elementsAsPattern g ctx use comma more)

def notAPattern (n : Node) : Parse Node := do
  report n.start .notPattern
  return .leaf .invalid n.span

/-- The pattern that an expression stands for, its outermost form first. -/
def formAsPattern (g : Grammar) (ctx : Context) (use : PatternUse) (n : Node) : Parse Node := do
  match n with
  | .mk (.identifier _) _ _ => return n
  | .mk (.assignment .assign) span [target, value] =>
    let isPattern := target.construct == .arrayPattern || target.construct == .objectPattern
    let target ← if isPattern then pure target else g.asPattern ctx use target
    return .mk .withDefault span [target, value]
  | .mk (.object comma) span members =>
    return .mk .objectPattern span (← membersAsPattern g ctx use comma members)
  | .mk (.array comma) span elements =>
    return .mk .arrayPattern span (← elementsAsPattern g ctx use comma elements)
  | .mk .yield _ _ =>
    if ctx.inGenerator then
      report n.start .yieldInParameter
      return .leaf .invalid n.span
    else notAPattern n
  | _ => notAPattern n

/-- Makes a pattern of an expression. What is assigned to may be any simple target; what is bound
must be a name or a pattern. -/
def expressionAsPattern (g : Grammar) (ctx : Context) (use : PatternUse) (n : Node) :
    Parse Node := do
  if n.construct == .invalid then return n
  else
    match use with
    | .assignment =>
      if n.isPatternLike then formAsPattern g ctx use n
      else
        checkTarget n
        return n
    | .assignmentElement =>
      if isTargetLike n.construct then
        if !n.isSimpleTarget then report n.start .complexAssignmentTarget
        return n
      else
        let isForm :=
          match n.construct with
          | .assignment _ => true
          | _ => n.isPatternLike
        if !isForm then report n.start .notPattern
        formAsPattern g ctx use n
    | _ => formAsPattern g ctx use n

/-- Reports the names in a pattern that strict code must not bind. Names in shorthand members are
not looked at. -/
def reportRestricted : Node → Parse Unit
  | .mk construct span parts =>
    match construct with
    | .identifier name =>
      if Node.isRestrictedName name then addFault span.start .restrictedName else pure ()
    | .arrayPattern | .objectPattern => reportAll parts
    | .rest => reportAll parts
    | .propertyPattern => reportSecond parts
    | .withDefault => reportFirst parts
    | _ => pure ()
where
  reportAll : List Node → Parse Unit
    | [] => pure ()
    | p :: ps => do
      reportRestricted p
      reportAll ps
  reportFirst : List Node → Parse Unit
    | p :: _ => reportRestricted p
    | [] => pure ()
  reportSecond : List Node → Parse Unit
    | _ :: p :: _ => reportRestricted p
    | _ => pure ()

def isPlainParameterList (params : List Node) : Bool := params.all fun p => p.name?.isSome

end Census.Script
