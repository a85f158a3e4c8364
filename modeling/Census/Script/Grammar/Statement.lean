import Census.Script.Grammar.Expression
/-!
Statements, variables and loops.
-/

namespace Census.Script

open Census.Text (Pos)
open Parse

/-! ## Variables -/

inductive VariableWord where
  | var
  | const
  | «let»
  deriving DecidableEq, Repr

/-- The token after the word `let` makes it the start of a declaration. -/
def followsLet (k : Kind) : Bool :=
  match k with
  | .identifier _ | .contextual _ _ | .punct .lbrace | .punct .lbracket => true
  | _ => false

/-- The word of the declaration that starts here, if one does. -/
def variableWord? : Parse (Option VariableWord) := do
  match ← kind with
  | .keyword .var => return some .var
  | .keyword .const => return some .const
  | .contextual .«let» _ => return if followsLet (← peek).kind then some .«let» else none
  | _ => return none

/-- Where a declaration in a loop head may end without an initial value. -/
def atLoopWord : Parse Bool := do return (← isContextual .of) || (← isKeyword .«in»)

def declarator (g : Grammar) (ctx : Context) (word : VariableWord) (inLoopHead : Bool) :
    Parse Node := do
  let start ← here
  let target ← g.pattern ctx (word != .var)
  let value ←
    if inLoopHead && (← atLoopWord) then pure []
    else if ← eat .assign then
      let v ← g.assignment ctx
      pure [v]
    else
      if word == .const && !inLoopHead then report start .initializerExpected
      else if target.name?.isNone then report start .patternInitializerExpected
      pure []
  return .mk .declarator (← spanFrom start) (target :: value)

/-- Declarators with commas between them. A semicolon after a comma is reported at `previous`. -/
def declarators (g : Grammar) (ctx : Context) (word : VariableWord) (inLoopHead : Bool)
    (trailingAt : Parse Pos) : Parse (List Node) :=
  repeating [] fun acc => do
    if ← isPunct .semi then
      report (← trailingAt) .trailingComma
      return .inr acc.reverse
    else
      let d ← declarator g ctx word inLoopHead
      if ← eat .comma then return .inl (d :: acc) else return .inr (d :: acc).reverse

/-- Passes over tokens up to the end of a statement or up to a text that is no token. -/
def skipStatement : Parse Unit :=
  repeating () fun _ => do
    if ← eatStatementEnd then return .inr ()
    else
      bump
      match ← kind with
      | .broken _ => return .inr ()
      | _ => return .inl ()

/-- A declaration of variables. After one that does not end where a statement can, the rest of the
line is skipped. -/
def variableDeclaration (g : Grammar) (ctx : Context) (word : VariableWord) (inLoopHead : Bool) :
    Parse Node := do
  let start ← here
  bump
  let keyword ← previous
  let trailingAt : Parse Pos := do
    let last ← previous
    return if last.start == keyword.start then last.stop else last.start
  let ctx' := { ctx with inOperator := !(word == .var && inLoopHead) }
  let names ← declarators g ctx' word inLoopHead trailingAt
  let node := Node.mk .variableDeclaration (← spanFrom start) names
  if inLoopHead then return node
  else
    if !(← eatStatementEnd) then
      reportHere .semicolonExpected
      let _ ← attempt (g.anyExpression ctx)
      skipStatement
    return node

/-- Variables after the word `using`, which is reported and not taken further. -/
def usingDeclaration? (g : Grammar) (ctx : Context) (start : Pos) : Parse (Option Node) := do
  let next ← peek
  if next.afterBreak || !next.kind.isReference then return none
  else
    bump
    let names ← declarators g { ctx with inOperator := true } .var false
      (do return (← previous).start)
    report start .usingNotEnabled
    return some (.mk .variableDeclaration (← spanFrom start) names)

/-! ## Simple statements -/

def expressionInParentheses (g : Grammar) (ctx : Context) : Parse Node := do
  expect .lparen
  let value ← g.anyExpression ctx
  expect .rparen
  return value

/-- The body of a loop or of a branch. Declarations are not statements. -/
def body (g : Grammar) (ctx : Context) : Parse Node := g.statement ctx false

def loopBody (g : Grammar) (ctx : Context) : Parse Node :=
  body g { ctx with breakAllowed := true, continueAllowed := true }

/-- A jump out of a statement or to the next round of a loop. -/
def jump (ctx : Context) (isBreak : Bool) : Parse Node := do
  let start ← here
  bump
  let label ←
    if ← eatStatementEnd then pure none
    else
      let name ← identifier ctx
      expectStatementEnd
      pure (some name)
  let isUnknown := label.any fun ident => !ctx.labels.contains ident.name.text
  if isBreak then
    if isUnknown then report start .breakToUnknownLabel
    else if !ctx.breakAllowed then report start .breakOutside
  else if !ctx.continueAllowed then report start .continueOutside
  else if isUnknown then report start .continueToUnknownLabel
  return .mk .jump (← spanFrom start) (label.map Ident.node).toList

def debuggerStatement : Parse Node := do
  let start ← here
  bump
  expectStatementEnd
  return .leaf .debuggerStatement (← spanFrom start)

def throwStatement (g : Grammar) (ctx : Context) : Parse Node := do
  let start ← here
  bump
  if ← afterBreak then fail .breakAfterThrow
  else
    let value ← g.anyExpression ctx
    expectStatementEnd
    return .mk .throwStatement (← spanFrom start) [value]

def returnRest (g : Grammar) (ctx : Context) (start : Pos) : Parse Node := do
  bump
  let value ←
    if ← atStatementEnd then pure []
    else
      let v ← g.anyExpression ctx
      pure [v]
  expectStatementEnd
  return .mk .returnStatement (← spanFrom start) value

/-- A return outside of a function is reported also where its value cannot be read. -/
def returnStatement (g : Grammar) (ctx : Context) : Parse Node := do
  let start ← here
  let result ← attempt (returnRest g ctx start)
  if !ctx.inFunction then report start .returnOutside
  match result with
  | .ok node => return node
  | .error fault => throw fault

def conditionalStatement (g : Grammar) (ctx : Context) : Parse Node := do
  let start ← here
  bump
  let test ← expressionInParentheses g ctx
  let first ← body g ctx
  let second ←
    if ← eatKeyword .«else» then
      let s ← body g ctx
      pure [s]
    else pure []
  return .mk .conditionalStatement (← spanFrom start) (test :: first :: second)

def whileLoop (g : Grammar) (ctx : Context) : Parse Node := do
  let start ← here
  bump
  let test ← expressionInParentheses g ctx
  let inner ← loopBody g ctx
  return .mk .whileLoop (← spanFrom start) [test, inner]

def doLoop (g : Grammar) (ctx : Context) : Parse Node := do
  let start ← here
  bump
  let inner ← loopBody g ctx
  expectKeyword .«while»
  let test ← expressionInParentheses g ctx
  let _ ← eatStatementEnd
  return .mk .doLoop (← spanFrom start) [test, inner]

def withStatement (g : Grammar) (ctx : Context) : Parse Node := do
  let start ← here
  addFault start .withStatement
  bump
  let object ← expressionInParentheses g ctx
  let inner ← body g ctx
  return .mk .withStatement (← spanFrom start) [object, inner]

/-! ## Switches and handlers -/

def caseStatements (g : Grammar) (ctx : Context) : Parse (List Node) := do
  expect .colon
  collectUntil
    (do return (← isKeyword .case) || (← isKeyword .«default») || (← isPunct .rbrace))
    (g.statement ctx true)

def switchCases (g : Grammar) (ctx : Context) : Parse (List Node) :=
  repeating (([] : List Node), false) fun (acc, hasDefault) => do
    let start ← here
    if ← eatKeyword .case then
      let test ← g.anyExpression ctx
      let statements ← caseStatements g ctx
      return .inl (.mk .switchCase (← spanFrom start) (test :: statements) :: acc, hasDefault)
    else if ← eatKeyword .«default» then
      if hasDefault then fail .secondDefault
      else
        let statements ← caseStatements g ctx
        return .inl (.mk .switchCase (← spanFrom start) statements :: acc, true)
    else return .inr acc.reverse

def switchStatement (g : Grammar) (ctx : Context) : Parse Node := do
  let start ← here
  bump
  let value ← expressionInParentheses g ctx
  expect .lbrace
  let cases ← switchCases g { ctx with breakAllowed := true }
  expect .rbrace
  return .mk .switch (← spanFrom start) (value :: cases)

def handler? (g : Grammar) (ctx : Context) : Parse (Option Node) := do
  let start ← here
  if ← eatKeyword .«catch» then
    let param ←
      if ← eat .lparen then
        let p ← g.pattern ctx false
        expect .rparen
        pure [p]
      else pure []
    let inner ← block g ctx
    return some (.mk .handler (← spanFrom start) (param ++ [inner]))
  else return none

def finalizer? (g : Grammar) (ctx : Context) : Parse (Option Node) := do
  if ← eatKeyword .«finally» then return some (← block g ctx) else return none

def tryStatement (g : Grammar) (ctx : Context) : Parse Node := do
  let start ← here
  bump
  let inner ← block g ctx
  let afterBlock ← here
  let handler ← handler? g ctx
  let finalizer ← finalizer? g ctx
  if handler.isNone && finalizer.isNone then report afterBlock .catchOrFinallyExpected
  return .mk .tryStatement (← spanFrom start) (inner :: handler.toList ++ finalizer.toList)

/-- A handler without a block before it is reported and read as far as it can be. -/
def strayHandler (g : Grammar) (ctx : Context) : Parse Node := do
  let start ← here
  reportHere .semicolonExpected
  let _ ← attempt (handler? g ctx)
  let _ ← attempt (finalizer? g ctx)
  return .leaf .invalid ⟨start, start⟩

/-! ## Loops with a head -/

inductive LoopHead where
  | steps (parts : List Node)
  | over (isOf : Bool) (target value : Node)

/-- The test and the step of a loop after the first semicolon. The second semicolon may be left
out. -/
def stepsHead (g : Grammar) (ctx : Context) (init : List Node) : Parse LoopHead := do
  let test ←
    if ← eat .semi then pure []
    else
      let t ← g.anyExpression ctx
      let _ ← eat .semi
      pure [t]
  let update ←
    if ← isPunct .rparen then pure []
    else
      let u ← g.anyExpression ctx
      pure [u]
  return .steps (init ++ test ++ update)

/-- What a loop runs over, after the place for its elements. -/
def overHead (g : Grammar) (ctx : Context) (target : Node) : Parse LoopHead := do
  let isOf ← isContextual .of
  bump
  let value ← if isOf then g.anyAssignment ctx else g.anyExpression ctx
  return .over isOf target value

/-- A declaration that stands for the elements of a loop binds one name or pattern, without an
initial value. -/
def checkLoopDeclaration (declaration : Node) : Parse Unit := do
  match declaration.parts with
  | [.mk _ span (_ :: value)] => if !value.isEmpty then report span.start .loopBindingInitializer
  | _ :: more => more.forM fun d => report d.start .severalLoopBindings
  | [] => pure ()

def loopHead (g : Grammar) (ctx : Context) : Parse LoopHead := do
  match ← variableWord? with
  | some word =>
    let declaration ← variableDeclaration g ctx word true
    if ← atLoopWord then
      checkLoopDeclaration declaration
      overHead g ctx declaration
    else
      expect .semi
      stepsHead g ctx [declaration]
  | none =>
    if ← eat .semi then stepsHead g ctx []
    else
      let init ← g.expression { ctx with inOperator := false }
      if ← atLoopWord then
        let target ← g.asPattern ctx .assignment init
        overHead g ctx target
      else
        expect .semi
        stepsHead g ctx [init]

def forLoop (g : Grammar) (ctx : Context) : Parse Node := do
  let start ← here
  bump
  let awaitAt ← here
  let isAwait ← eatContextual .await
  expect .lparen
  let head ← loopHead g { ctx with inLoopHead := true, inAwaitLoopHead := isAwait }
  expect .rparen
  let inner ← loopBody g ctx
  let span ← spanFrom start
  match head with
  | .over true target value => return .mk .forOfLoop span [target, value, inner]
  | .over false target value =>
    if isAwait then failAt awaitAt .awaitNotForOf
    else return .mk .forInLoop span [target, value, inner]
  | .steps parts =>
    if isAwait then failAt awaitAt .awaitNotForOf
    else return .mk .forLoop span (parts ++ [inner])

/-! ## Statements -/

/-- A statement after its label and colon. Strict code labels no functions. -/
def labelled (g : Grammar) (ctx : Context) (label : Ident) : Parse Node := do
  let name := label.name.text
  let ctx' := { ctx with breakAllowed := true, labels := name :: ctx.labels }
  let start ← here
  let inner ←
    if ← isKeyword .function then
      let (f, isMarked) ← functionDeclaration g ctx' start false
      report start .labelledFunction
      if isMarked then report start .labelledGenerator
      pure f
    else body g ctx'
  (ctx.labels.filter (· == name)).forM fun _ => report label.start (.duplicateLabel name)
  return .mk .labelled (← spanFrom label.start) [label.node, inner]

/-- The end of a statement that is an expression. An operator that follows the expression on the
same line is reported and read on. -/
def endExpression (g : Grammar) (ctx : Context) (value : Node) : Parse Node := do
  if ← eatStatementEnd then
    return .mk .expressionStatement (← spanFrom value.start) [value]
  else if ← atOperatorSign then
    reportHere .semicolonExpected
    let whole ← g.binaryTail { ctx with inOperator := true } value 0
    return .mk .expressionStatement (← spanFrom value.start) [whole]
  else fail .statementEndExpected

def expressionOrLabel (g : Grammar) (ctx : Context) : Parse Node := do
  let value ← g.anyExpression ctx
  match value.name? with
  | some name =>
    if ← eat .colon then labelled g ctx ⟨name, value.span⟩ else endExpression g ctx value
  | none => endExpression g ctx value

/-- An expression that starts with `import`. Imports and exports are no statements. -/
def importStatement (g : Grammar) (ctx : Context) : Parse Node := do
  let start ← here
  let next ← if ← isKeyword .«import» then (do return (← peek).kind) else pure Kind.eof
  if next == .punct .lparen || next == .punct .dot then
    let value ← g.anyExpression ctx
    let _ ← eatStatementEnd
    return .mk .expressionStatement (← spanFrom start) [value]
  else fail .moduleItemInside

/-- Either a declaration with `await using`, or an expression that awaits something called
`using`. -/
def awaitUsing (g : Grammar) (ctx : Context) : Parse Node := do
  let start ← here
  bump
  match ← usingDeclaration? g ctx start with
  | some node => return node
  | none =>
    let ctx := { ctx with inOperator := true }
    let value ← awaitRest g ctx start
    let whole ← g.binaryTail ctx value 0
    let _ ← eatStatementEnd
    return .mk .expressionStatement (← spanFrom start) [whole]

def emptyStatement : Parse Node := do
  let start ← here
  bump
  return .leaf .emptyStatement (← spanFrom start)

def declaration (includesDeclarations : Bool) (read : Parse Node) : Parse Node := do
  if !includesDeclarations then reportHere .declarationNotAllowed
  read

/-- A statement that starts with a word which may also be a name. -/
def wordStatement (g : Grammar) (ctx : Context) (includesDeclarations : Bool)
    (w : Contextual) : Parse Node := do
  let start ← here
  match w with
  | .await =>
    if includesDeclarations && Kind.isContextual (← peek).kind .using then awaitUsing g ctx
    else expressionOrLabel g ctx
  | .«let» =>
    if includesDeclarations && followsLet (← peek).kind then variableDeclaration g ctx .«let» false
    else expressionOrLabel g ctx
  | .using =>
    match ← if includesDeclarations then usingDeclaration? g ctx start else pure none with
    | some node => return node
    | none => expressionOrLabel g ctx
  | .async =>
    if ← atAsyncFunction then asyncFunctionDeclaration g ctx else expressionOrLabel g ctx
  | _ => expressionOrLabel g ctx

def statementNode (g : Grammar) (ctx : Context) (includesDeclarations : Bool) : Parse Node := do
  let start ← here
  match ← kind with
  | .keyword .«import» | .keyword .«export» => importStatement g ctx
  | .keyword .«break» => jump ctx true
  | .keyword .«continue» => jump ctx false
  | .keyword .debugger => debuggerStatement
  | .keyword .«do» => doLoop g ctx
  | .keyword .«for» => forLoop g ctx
  | .keyword .function =>
    declaration includesDeclarations (do return (← functionDeclaration g ctx start false).1)
  | .keyword .«class» =>
    declaration includesDeclarations (classNode g ctx .classDeclaration true)
  | .keyword .«if» => conditionalStatement g ctx
  | .keyword .«return» => returnStatement g ctx
  | .keyword .switch => switchStatement g ctx
  | .keyword .throw => throwStatement g ctx
  | .keyword .«catch» | .keyword .«finally» => strayHandler g ctx
  | .keyword .«try» => tryStatement g ctx
  | .keyword .«with» => withStatement g ctx
  | .keyword .«while» => whileLoop g ctx
  | .keyword .var => variableDeclaration g ctx .var false
  | .keyword .const =>
    if includesDeclarations then variableDeclaration g ctx .const false else expressionOrLabel g ctx
  | .punct .lbrace => block g ctx
  | .punct .semi => emptyStatement
  | .contextual w _ => wordStatement g ctx includesDeclarations w
  | _ => expressionOrLabel g ctx

end Census.Script
