import Census.Script.Grammar.Class
/-!
Expressions.
-/

namespace Census.Script

open Census.Text (Pos)
open Parse

/-- The binary operator that a token is, with its level. -/
def binaryOperator? (ctx : Context) (k : Kind) : Option (BinaryOperator × Nat) :=
  match k with
  | .punct p => p.binaryLevel?.map fun level => (.symbol p, level)
  | .keyword .«in» => if ctx.inOperator then some (.membership, 7) else none
  | .keyword .instanceof => some (.instanceof, 7)
  | _ => none

def atOperatorSign : Parse Bool := do
  match ← kind with
  | .punct p => return p.binaryLevel?.isSome
  | _ => return false

def maybeSpread (g : Grammar) (ctx : Context) : Parse Node := do
  let start ← here
  if ← eat .ellipsis then
    let value ← g.anyAssignment ctx
    return .mk .spread (← spanFrom start) [value]
  else g.assignment ctx

def arguments (g : Grammar) (ctx : Context) : Parse (List Node) := do
  expect .lparen
  let args ← repeating [] fun acc => do
    if ← isPunct .rparen then return .inr acc.reverse
    else
      if !acc.isEmpty then expect .comma
      if ← isPunct .rparen then return .inr acc.reverse
      else return .inl ((← maybeSpread g { ctx with inOperator := true }) :: acc)
  expect .rparen
  return args

/-! ## Objects, lists and templates -/

def arrayLiteral (g : Grammar) (ctx : Context) : Parse Node := do
  let start ← here
  bump
  let (elements, comma) ←
    repeating (([] : List Node), (none : Option Pos)) fun (acc, comma) => do
      if ← isPunct .rbracket then return .inr (acc.reverse, comma)
      else
        let itemStart ← here
        if ← eat .comma then return .inl (.leaf .hole ⟨itemStart, itemStart⟩ :: acc, comma)
        else
          let item ← maybeSpread g { ctx with inOperator := true }
          if ← isPunct .rbracket then return .inl (item :: acc, comma)
          else
            expect .comma
            if ← isPunct .rbracket then return .inl (item :: acc, some (← previous).start)
            else return .inl (item :: acc, comma)
  expect .rbracket
  return .mk (.array comma) (← spanFrom start) elements

/-- A member after one of the words `get`, `set` and `async`. -/
def modifiedObjectMember (g : Grammar) (ctx : Context) (start : Pos) (word : String) :
    Parse Node := do
  let isGenerator ← if word == "async" then eat .star else pure false
  let key ← propertyKey g ctx
  let (role, arity) : MemberRole × Arity :=
    if word == "get" then (.get, .getter key.start)
    else if word == "set" then (.set, .setter key.start)
    else (.method, .any)
  let rest ← methodRest g ctx (word == "async") isGenerator arity
  return .mk (.objectMember role) (← spanFrom start) (key :: rest)

def objectMember (g : Grammar) (ctx : Context) : Parse Node := do
  let start ← here
  if ← eat .ellipsis then
    let value ← g.anyAssignment ctx
    return .mk .spread (← spanFrom start) [value]
  else if ← eat .star then
    let key ← propertyKey g ctx
    let rest ← methodRest g ctx false true .any
    return .mk (.objectMember .method) (← spanFrom start) (key :: rest)
  else
    let key ← propertyKey g ctx
    if ← eat .colon then
      let value ← g.anyAssignment ctx
      return .mk .property (← spanFrom start) [key, value]
    else if ← isPunct .lparen then
      let rest ← methodRest g ctx false false .any
      return .mk (.objectMember .method) (← spanFrom start) (key :: rest)
    else
      match key.name? with
      | none => unexpected "identifier"
      | some name =>
        let word := name.text
        if ← eat .question then report (← previous).start .optionalMember
        match ← kind with
        | .punct .assign =>
          bump
          let value ← g.anyAssignment ctx
          return .mk .shorthandWithValue (← spanFrom start) [key, value]
        | .punct .comma | .punct .rbrace => return .mk .shorthand (← spanFrom start) [key]
        | _ =>
          if word == "get" || word == "set" || word == "async" then
            modifiedObjectMember g ctx start word
          else unexpected "... , *,  (, [, :, , ?, = or an identifier"

def objectLiteral (g : Grammar) (ctx : Context) : Parse Node := do
  let start ← here
  let (members, comma) ← braced (objectMember g ctx)
  return .mk (.object comma) (← spanFrom start) members

/-- Passes over a stretch of a template. A tag may get a stretch that cannot be read; a template of
its own may not hold one. -/
def passStretch (tagged : Bool) (bad : Option Fault) : Parse Unit := do
  bump
  match bad with
  | some fault => if tagged then pure () else throw fault
  | none => pure ()

/-- The holes of a template after its head. -/
def templateHoles (g : Grammar) (ctx : Context) (tagged : Bool) : Parse (List Node) :=
  repeating [] fun acc => do
    let value ← g.anyExpression ctx
    if !(← isPunct .rbrace) then unexpected "`\x7d`"
    else
      reread (readTemplate false)
      match ← kind with
      | .templateTail bad =>
        passStretch tagged bad
        return .inr (value :: acc).reverse
      | .templateMiddle bad =>
        passStretch tagged bad
        return .inl (value :: acc)
      | .broken fault => failBroken fault
      | _ => unexpected "`\x7d`"

def template (g : Grammar) (ctx : Context) (tagged : Bool) : Parse Node := do
  let start ← here
  match ← kind with
  | .templateHead bad =>
    passStretch tagged bad
    let holes ← templateHoles g ctx tagged
    return .mk .template (← spanFrom start) holes
  | .templateWhole bad =>
    passStretch tagged bad
    return .leaf .template (← spanFrom start)
  | _ => fail .expressionExpected

def atTemplate : Parse Bool := do
  match ← kind with
  | .templateHead _ | .templateWhole _ => return true
  | _ => return false

/-- A regular expression. One that does not end is the last thing that is read. -/
def regExpLiteral : Parse Node := do
  let start ← here
  reread readRegExp
  match ← kind with
  | .broken fault => throw fault
  | _ =>
    bump
    return .leaf .regExpLiteral (← spanFrom start)

/-! ## Names, parentheses and arrow functions -/

def arrowNode (g : Grammar) (ctx : Context) (start : Pos) (isAsync : Bool)
    (params : List Node) : Parse Node := do
  let body ← arrowBody g ctx isAsync params
  return .mk (.arrow (body.construct == .block)) (← spanFrom start) (params ++ [body])

/-- A name, or an arrow function with that name as its parameter or with the word `async` before its
parameter. -/
def nameOrArrow (g : Grammar) (ctx : Context) (mayBeArrow : Bool) : Parse Node := do
  let start ← here
  let id ← identifier ctx
  if ctx.inField && id.name.text == "arguments" then report start .argumentsInField
  if !mayBeArrow || (← afterBreak) then return id.node
  else if id.name.text == "async" && (← kind).isReference then
    if ctx.inLoopHead && (← isContextual .of) && (← peek).kind != .punct .arrow then
      if !ctx.inAwaitLoopHead then report start .asyncInForOf
      return id.node
    else
      let param ← bindingName ctx false
      expect .arrow
      arrowNode g ctx start true [param.node]
  else if ← eat .arrow then
    if Node.isRestrictedName id.name then addFault start .restrictedName
    arrowNode g ctx start false [id.node]
  else return id.node

/-- An item in parentheses. A name before an arrow on a line of its own becomes an arrow function. -/
def parenthesizedItem (g : Grammar) (ctx : Context) : Parse Node := do
  let start ← here
  modify fun s => { s with arrowStart := some start }
  let item ← maybeSpread g ctx
  if ← eat .arrow then
    if item.name?.isSome then arrowNode g ctx start false [item] else return item
  else return item

/-- Items in parentheses, which may turn out to be parameters, and the place of a comma after the
last. -/
def parenthesizedItems (g : Grammar) (ctx : Context) : Parse (List Node × Option Pos) := do
  expect .lparen
  let items ← repeating (([] : List Node), (none : Option Pos)) fun (acc, comma) => do
    if ← isPunct .rparen then return .inr (acc.reverse, comma)
    else
      let item ← parenthesizedItem g ctx
      if ← isPunct .rparen then return .inl (item :: acc, comma)
      else
        expect .comma
        if ← isPunct .rparen then return .inl (item :: acc, some (← previous).start)
        else return .inl (item :: acc, comma)
  expect .rparen
  return items

def itemsAsParameters (g : Grammar) (ctx : Context) (comma : Option Pos) :
    List Node → Parse (List Node)
  | [] => return []
  | [.mk .spread span [value]] => do
    checkRestValue span.start value
    reportComma comma
    let target ← g.asPattern ctx .binding value
    return [.mk .rest span [target]]
  | item :: more => do
    match item with
    | .mk .spread span _ =>
      report span.start .restNotLast
      itemsAsParameters g ctx comma more
    | _ =>
      let param ← g.asPattern ctx .binding item
      return param :: (← itemsAsParameters g ctx comma more)

/-- An arrow function after its parameters. Where its body is a block, an operator cannot follow. -/
def arrowAfterItems (g : Grammar) (ctx : Context) (start : Pos) (isAsync mayBeArrow : Bool)
    (items : List Node) (comma : Option Pos) : Parse Node := do
  if ← afterBreak then failAt start .breakBeforeArrow
  else if !mayBeArrow then failAt start .arrowNotAllowed
  else
    bump
    let params ← itemsAsParameters g ctx comma items
    params.forM reportRestricted
    let node ← arrowNode g ctx start isAsync params
    if node.construct == .arrow true && (← atOperatorSign) then
      reportHere .semicolonExpected
      let whole ← g.binaryTail ctx node 0
      if !(← atStatementEnd) then reportHere .semicolonExpected
      return whole
    else return node

/-- The expression that items in parentheses are when no arrow follows. -/
def itemsAsExpression (start : Pos) (items : List Node) : Parse Node := do
  match items.find? fun item => item.construct == .spread with
  | some (.mk _ span parts) =>
    failAt ((parts.head?.map Node.start).getD span.start) .spreadInParentheses
  | none =>
    match items with
    | [] => failAt start .emptyParentheses
    | [inner] => return .mk .parenthesized (← spanFrom start) [inner]
    | first :: more =>
      let stop := (more.getLast?.map (·.span.stop)).getD first.span.stop
      let inner := Node.mk .sequence ⟨first.start, stop⟩ items
      return .mk .parenthesized (← spanFrom start) [inner]

/-- What starts with a parenthesis, or with the word `async` at `asyncAt` and a parenthesis. -/
def parenthesized (g : Grammar) (ctx : Context) (mayBeArrow : Bool) (asyncAt : Option Node) :
    Parse Node := do
  let start := (asyncAt.map Node.start).getD (← here)
  let (items, comma) ← parenthesizedItems g { ctx with inOperator := true }
  if ← isPunct .arrow then
    arrowAfterItems g ctx start asyncAt.isSome mayBeArrow items comma
  else
    match asyncAt with
    | some word => return .mk .call (← spanFrom start) (word :: items)
    | none => itemsAsExpression start items

def asyncExpression (g : Grammar) (ctx : Context) (mayBeArrow : Bool) : Parse Node := do
  let start ← here
  if ← atAsyncFunction then
    bump
    functionExpression g ctx start true
  else
    let next ← peek
    if mayBeArrow && next.kind == .punct .lparen && !next.afterBreak then
      let word := (← anyName).node
      parenthesized g ctx mayBeArrow (some word)
    else nameOrArrow g ctx mayBeArrow

def primary (g : Grammar) (ctx : Context) : Parse Node := do
  let start ← here
  let mayBeArrow := (← get).arrowStart == some start
  let take (c : Construct) : Parse Node := do
    bump
    return .leaf c (← spanFrom start)
  match ← kind with
  | .broken fault => failBroken fault
  | .keyword .this => take .thisExpression
  | .keyword .null | .keyword .true | .keyword .false => take .constantLiteral
  | .number value => take (.numberLiteral value)
  | .bigint => take .bigintLiteral
  | .string value _ => take (.stringLiteral value)
  | .punct .lbracket => arrayLiteral g ctx
  | .punct .lbrace => objectLiteral g ctx
  | .punct .lparen => parenthesized g ctx mayBeArrow none
  | .punct .slash | .punct .slashAssign => regExpLiteral
  | .punct .hash => privateName
  | .templateHead _ | .templateWhole _ => template g ctx false
  | .keyword .function => functionExpression g ctx start false
  | .keyword .«class» => classNode g ctx .classExpression false
  | .contextual .async _ => asyncExpression g ctx mayBeArrow
  | .contextual .«let» _ => return (← identifier ctx).node
  | k => if k.isReference then nameOrArrow g ctx mayBeArrow else fail .expressionExpected

/-! ## Members, calls and constructions -/

/-- Stops at `super` unless its members are within reach here. -/
def checkSuper (ctx : Context) (object : Node) (chained noCall : Bool) : Parse Unit := do
  if !ctx.directSuper then failAt object.start .superNotAllowed
  else if chained then failAt object.start (if noCall then .badSuperCall else .superNotAllowed)

def memberNode (ctx : Context) (object key : Node) (chained noCall : Bool) : Parse Node := do
  let span ← spanFrom object.start
  match object.construct with
  | .superReference =>
    checkSuper ctx object chained noCall
    match key.construct with
    | .privateName _ => fail .badSuperCall
    | _ => return .mk .superMember span [key]
  | .importReference => fail .importNotAllowed
  | _ =>
    let access := Node.mk .member span [object, key]
    if chained || object.isChained then return .mk .chained span [access] else return access

def callNode (callee : Node) (args : List Node) (chained : Bool) : Parse Node := do
  let span ← spanFrom callee.start
  let call := Node.mk .call span (callee :: args)
  match callee.construct with
  | .superReference => if chained then fail .superNotAllowed else return call
  | .importReference =>
    if chained then fail .superNotAllowed
    else if args.length == 1 || args.length == 2 then return call
    else failAt callee.start .importArity
  | _ => if chained || callee.isChained then return .mk .chained span [call] else return call

def memberKey : Parse Node := do
  if ← isPunct .hash then privateName else return (← anyName).node

/-- One step from an expression to a larger one that starts with it, if there is one. -/
def subscript? (g : Grammar) (ctx : Context) (object : Node) (noCall : Bool) :
    Parse (Option Node) := do
  let chained ← eat .questionDot
  let bracket ← here
  if ← eat .lbracket then
    let index ← g.anyExpression ctx
    expect .rbracket
    let key := Node.mk .computedKey (← spanFrom bracket) [index]
    return some (← memberNode ctx object key chained noCall)
  else if (← isPunct .lparen) &&
      (chained || !noCall || object.construct == .importReference) then
    let args ← arguments g ctx
    return some (← callNode object args chained)
  else if ← (if chained then pure true else eat .dot) then
    let key ← memberKey
    return some (← memberNode ctx object key chained noCall)
  else
    match object.construct with
    | .superReference => fail (if noCall then .badSuperCall else .superNotAllowed)
    | .importReference => fail .importNotAllowed
    | _ =>
      if ← atTemplate then
        if object.isChained then reportHere .taggedOptionalChain
        let quasi ← template g ctx true
        return some (.mk .taggedTemplate (← spanFrom object.start) [object, quasi])
      else return none

/-- All that follows an expression as a member, a call or a template. Calls are left alone after
`new`. -/
def subscripts (g : Grammar) (ctx : Context) (noCall : Bool) (object : Node) : Parse Node :=
  repeating object fun object => do
    match ← subscript? g ctx object noCall with
    | some larger => return .inl larger
    | none => return .inr object

/-- What starts with the word `import` as an expression, which has been passed. -/
def importExpression (g : Grammar) (ctx : Context) (start : Pos) (noCall : Bool) :
    Parse Node := do
  let reference := Node.leaf .importReference (← spanFrom start)
  if ← eat .dot then
    let word ← anyName
    match word.name.text with
    | "meta" => subscripts g ctx noCall (.leaf .importMeta (← spanFrom start))
    | "defer" | "source" => subscripts g ctx noCall reference
    | _ => unexpected "meta"
  else subscripts g ctx noCall reference

/-- The word `super`, which has been passed, and what follows it. -/
def superExpression (g : Grammar) (ctx : Context) (start : Pos) (noCall : Bool) :
    Parse Node := do
  subscripts g ctx noCall (.leaf .superReference (← spanFrom start))

def afterNew (g : Grammar) (ctx : Context) (start : Pos) : Parse Node := do
  if ← eat .dot then
    if ← eatContextual .target then
      let span ← spanFrom start
      if !ctx.inOrdinaryFunction && !ctx.inParameters && !ctx.inClass then
        report start .newTargetNotAllowed
      subscripts g ctx true (.leaf .newTarget span)
    else unexpected "target"
  else
    let callee ← g.construction ctx
    let overChain :=
      callee.isChained ||
        (callee.construct == .member && (callee.parts.head?.map Node.isChained).getD false)
    if callee.isArrow then return callee
    else if overChain then failAt callee.start .newOfOptionalChain
    else if ← isPunct .lparen then
      let args ← arguments g ctx
      let node := Node.mk .construction (← spanFrom start) (callee :: args)
      subscripts g ctx true node
    else return .mk .construction (← spanFrom start) [callee]

/-- An expression without calls outside of its parts, or a construction. -/
def construction (g : Grammar) (ctx : Context) : Parse Node := do
  let start ← here
  match ← kind with
  | .keyword .new =>
    bump
    afterNew g ctx start
  | .keyword .super =>
    bump
    superExpression g ctx start true
  | .keyword .«import» =>
    bump
    importExpression g ctx start true
  | _ =>
    let object ← primary g ctx
    if object.isArrow then return object else subscripts g ctx true object

/-- An expression that may stand before an operator. -/
def leftHand (g : Grammar) (ctx : Context) : Parse Node := do
  let start ← here
  match ← kind with
  | .keyword .super =>
    bump
    superExpression g ctx start false
  | .keyword .«import» =>
    bump
    importExpression g ctx start false
  | _ =>
    let callee ← construction g ctx
    if callee.isArrow then return callee
    else if ← isPunct .lparen then
      let args ← arguments g ctx
      subscripts g ctx false (← callNode callee args false)
    else return callee

/-! ## Operators -/

/-- A word `await` that nothing follows is taken for a name, and reported as such. -/
def awaitsNothing (ctx : Context) : Parse Bool := do
  if ctx.inAsync then return false
  else
    match ← kind with
    | .punct .rparen | .punct .rbracket | .punct .semi | .punct .comma => return true
    | _ => atStatementEnd

/-- What follows the word `await`, which stood at `start`. -/
def awaitRest (g : Grammar) (ctx : Context) (start : Pos) : Parse Node := do
  if ← isPunct .star then fail .awaitStar
  else if ← awaitsNothing ctx then
    report start .awaitAsName
    return .leaf (.identifier (.ofString "await")) (← spanFrom start)
  else
    if ctx.inFunction && !ctx.inAsync then report start .awaitOutsideAsync
    if ctx.inParameters && !ctx.inFunction then report start .awaitInParameter
    let operand ← g.unary ctx
    return .mk .await (← spanFrom start) [operand]

/-- An operator before its operand. Without a readable operand the fault is reported, and reading
goes on after it. -/
def unaryWith (g : Grammar) (ctx : Context) (op : UnaryOperator) : Parse Node := do
  let start ← here
  bump
  let operandStart ← here
  match ← attempt (g.unary ctx) with
  | .ok operand =>
    if op == .delete && operand.name?.isSome then addFault operand.start .deleteName
    return .mk (.unary op) (← spanFrom start) [operand]
  | .error fault =>
    report fault.pos fault.cause
    return .mk (.unary op) (← spanFrom start) [.leaf .invalid ⟨operandStart, operandStart⟩]

def unaryExpression (g : Grammar) (ctx : Context) : Parse Node := do
  let start ← here
  match ← kind with
  | .punct .plusPlus | .punct .minusMinus =>
    bump
    let operand ← g.unary ctx
    checkTarget operand
    return .mk .update (← spanFrom start) [operand]
  | .keyword .delete => unaryWith g ctx .delete
  | .keyword .void => unaryWith g ctx .void
  | .keyword .typeof => unaryWith g ctx .typeof
  | .punct .plus => unaryWith g ctx (.sign .plus)
  | .punct .minus => unaryWith g ctx (.sign .minus)
  | .punct .tilde => unaryWith g ctx (.sign .tilde)
  | .punct .bang => unaryWith g ctx (.sign .bang)
  | .contextual .await _ =>
    bump
    awaitRest g ctx start
  | _ =>
    let operand ← leftHand g ctx
    if operand.isArrow || (← afterBreak) then return operand
    else if (← isPunct .plusPlus) || (← isPunct .minusMinus) then
      checkTarget operand
      bump
      return .mk .update (← spanFrom start) [operand]
    else return operand

def isOperation (n : Node) (p : Punct) : Bool := n.construct == .binary (.symbol p)

/-- The two logical operators that do not mix with `??`. -/
def isLogical (n : Node) : Bool := isOperation n .ampAmp || isOperation n .barBar

/-- Reports an operand of `??` that is a logical operation without parentheses. -/
def checkNullish (operand : Node) : Parse Unit := do
  if isLogical operand then report operand.start .mixedNullish

/-- Operators that bind tighter than a level, with their right operands. -/
def binaryTail (g : Grammar) (ctx : Context) (left : Node) (level : Nat) : Parse Node :=
  repeating left fun left => do
    match binaryOperator? ctx (← kind) with
    | none => return .inr left
    | some (op, tightness) =>
      if tightness ≤ level then return .inr left
      else
        bump
        let isPower := op == .symbol .starStar
        let isUnary :=
          match left.construct with
          | .unary _ | .await => true
          | _ => false
        if isPower && isUnary then fail .unaryBeforePower
        let operand ← g.unary ctx
        let right ← g.binaryTail ctx operand (if isPower then tightness - 1 else tightness)
        if op == .symbol .nullish then
          checkNullish left
          checkNullish right
        let node := Node.mk (.binary op) ⟨left.start, right.span.stop⟩ [left, right]
        if isLogical node && isOperation left .nullish then report node.start .mixedNullish
        return .inl node

/-- Operands and operators. Where the first operand cannot be read and an operator follows, that is
reported, and the operator gets an empty operand. -/
def binaryExpression (g : Grammar) (ctx : Context) : Parse Node := do
  match ← attempt (unaryExpression g ctx) with
  | .ok left => if left.isArrow then return left else binaryTail g ctx left 0
  | .error fault =>
    if (binaryOperator? ctx (← kind)).isSome then
      reportHere .expressionExpected
      binaryTail g ctx (.leaf .invalid ⟨fault.pos, fault.pos⟩) 0
    else throw fault

def conditionalExpression (g : Grammar) (ctx : Context) : Parse Node := do
  let start ← here
  let test ← binaryExpression g ctx
  if test.isArrow then return test
  else if ← eat .question then
    let first ← g.anyAssignment ctx
    expect .colon
    let second ← g.assignment ctx
    return .mk .conditional (← spanFrom start) [test, first, second]
  else return test

/-- The tokens with which an expression can start. -/
def startsExpression (k : Kind) : Bool :=
  match k with
  | .identifier _ | .contextual _ _ | .number _ | .bigint | .string _ _ | .regExp
  | .templateHead _ | .templateWhole _ => true
  | .keyword w =>
    [.new, .this, .super, .«class», .function, .«import», .typeof, .void, .delete, .null, .true,
      .false].contains w
  | .punct p =>
    [.bang, .lparen, .lbracket, .lbrace, .plusPlus, .minusMinus, .plus, .minus, .tilde, .slash,
      .slashAssign, .star].contains p
  | _ => false

def yieldExpression (g : Grammar) (ctx : Context) : Parse Node := do
  let start ← here
  bump
  if ctx.inParameters && !ctx.inFunction then failAt start .yieldInParameter
  else if (← atStatementEnd) || !startsExpression (← kind) then
    return .leaf .yield (← spanFrom start)
  else
    let _ ← eat .star
    let value ← g.assignment ctx
    return .mk .yield (← spanFrom start) [value]

/-- An operator that assigns, and its value, if one stands after what has been read. -/
def maybeAssignment (g : Grammar) (ctx : Context) (start : Pos) (left : Node) : Parse Node := do
  match ← kind with
  | .punct op =>
    if !op.isAssignment then return left
    else
      let target ←
        if op == .assign then g.asPattern ctx .assignment left
        else
          if !left.isSimpleTarget then report left.start .complexAssignmentTarget
          pure left
      if !target.isTarget then failAt target.start .notAssignable
      else
        bump
        let value ← g.assignment ctx
        return .mk (.assignment op) (← spanFrom start) [target, value]
  | _ => return left

def opensArrow (k : Kind) : Bool :=
  match k with
  | .identifier _ | .punct .lparen => true
  | .contextual w _ => w != .«let»
  | _ => false

/-- The constructs that cannot stand before an operator that assigns. -/
def endsExpression (c : Construct) : Bool :=
  match c with
  | .arrow _ | .conditional | .binary _ | .unary _ | .update => true
  | _ => false

def assignmentExpression (g : Grammar) (ctx : Context) : Parse Node := do
  let start ← here
  let k ← kind
  match k with
  | .broken fault => failBroken fault
  | _ =>
    if ctx.inGenerator && Kind.isContextual k .yield then yieldExpression g ctx
    else
      modify fun s => { s with arrowStart := if opensArrow k then some start else none }
      let value ← conditionalExpression g ctx
      if endsExpression value.construct then return value
      else maybeAssignment g ctx start value

end Census.Script
