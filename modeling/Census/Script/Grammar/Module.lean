import Census.Script.Grammar.Statement
/-!
Imports, exports and the items of a module.
-/

namespace Census.Script

open Census.Text (Pos)
open Parse

def moduleSource : Parse Unit := do
  match ← stringLiteral? with
  | some _ => pure ()
  | none => unexpected "a string literal"

/-- Attributes after the name of a module, on the same line. -/
def attributes (g : Grammar) (ctx : Context) : Parse (List Node) := do
  if ← afterBreak then return []
  else if (← eatContextual .assert) || (← eatKeyword .«with») then
    return [← objectLiteral g { ctx with inOperator := true }]
  else return []

/-- A word or a string under which something is exported. -/
def exportName : Parse Node := do
  match ← stringLiteral? with
  | some node => return node
  | none => if (← kind).name?.isSome then return (← anyName).node else unexpected "identifier or string"

/-! ## Imports -/

def importedName (ctx : Context) : Parse Node := do
  let name ← exportName
  if ← eatContextual .«as» then return (← bindingName ctx false).node
  else
    match name.construct with
    | .stringLiteral text => failAt name.start (.stringImported text)
    | _ => return name

/-- The words `source` and `defer` before what is imported. The first tells that a default binding
has been read, the second that a star must follow. -/
def defaultImport (ctx : Context) : Parse Bool := do
  let ident ← bindingName ctx false
  match ident.name.text with
  | "defer" => if ← isPunct .star then return false else phased
  | "source" => phased
  | _ => return true
where
  phased : Parse Bool := do
    let isFrom ← isContextual .«from»
    if (← kind).isReference && (!isFrom || Kind.isContextual (← peek).kind .«from») then
      let _ ← bindingName ctx false
    return true

def importClause (ctx : Context) : Parse Unit := do
  if (← kind).isReference then
    if ← defaultImport ctx then
      if !(← isContextual .«from») then expect .comma
  if ← eat .star then
    expectContextual .«as»
    let _ ← bindingName ctx false
  else if ← isPunct .lbrace then
    let _ ← braced (importedName ctx)

def importItem (g : Grammar) (ctx : Context) : Parse Node := do
  let start ← here
  let next := (← peek).kind
  if next == .punct .lparen || next == .punct .dot then importStatement g ctx
  else
    bump
    match ← kind with
    | .string _ _ => moduleSource
    | _ =>
      importClause ctx
      expectContextual .«from»
      moduleSource
    let attrs ← attributes g ctx
    let _ ← eatStatementEnd
    return .mk .importDeclaration (← spanFrom start) attrs

/-! ## Exports -/

/-- Words that cannot be exported without naming the module that they come from. -/
def exportNeedsSource (name : String) : Bool :=
  match Keyword.ofSpelling? name with
  | some _ => true
  | none => name == "enum" || name == "package"

def exportSource (g : Grammar) (ctx : Context) (start : Pos) : Parse Node := do
  moduleSource
  let attrs ← attributes g ctx
  let _ ← eatStatementEnd
  return .mk .exportNames (← spanFrom start) attrs

/-- The names of an export that names no other module. -/
def checkExported (names : List Node) : Parse Unit :=
  names.forM fun n => do
    match n.construct with
    | .identifier name =>
      if exportNeedsSource name.text then report n.start (.exportNeedsFrom name.text)
    | .stringLiteral _ => failAt n.start .stringExported
    | _ => pure ()

/-- One name in the braces of an export. The name that it gets outside is passed over. -/
def exportedName : Parse Node := do
  let name ← exportName
  if ← eatContextual .«as» then
    let _ ← exportName
  return name

def exportNames (g : Grammar) (ctx : Context) (start : Pos) : Parse Node := do
  let (names, _) ← braced exportedName
  if ← eatContextual .«from» then exportSource g ctx start
  else
    checkExported names
    let _ ← eatStatementEnd
    return .leaf .exportNames (← spanFrom start)

def exportStar (g : Grammar) (ctx : Context) (start : Pos) : Parse Node := do
  if ← eatContextual .«as» then
    let _ ← exportName
  expectContextual .«from»
  exportSource g ctx start

def exportDefault (g : Grammar) (ctx : Context) (start : Pos) : Parse Node := do
  let inner ← here
  let declared (read : Parse Node) : Parse Node := do
    let node ← read
    return .mk .exportDefaultDeclaration (← spanFrom start) [node]
  if ← isKeyword .«class» then declared (classNode g ctx .classExpression false)
  else if ← atAsyncFunction then
    bump
    declared (functionExpression g ctx inner true)
  else if ← isKeyword .function then declared (functionExpression g ctx inner false)
  else
    let value ← g.anyAssignment ctx
    expectStatementEnd
    return .mk .exportDefault (← spanFrom start) [value]

/-- What follows the word `export`, which stood at `start`. -/
def exportRest (g : Grammar) (ctx : Context) (start : Pos) : Parse Node := do
  let inner ← here
  let declared (read : Parse Node) : Parse Node := do
    let node ← read
    return .mk .exportDeclaration (← spanFrom start) [node]
  match ← kind with
  | .eof => fail .endOfText
  | .punct .star =>
    bump
    exportStar g ctx start
  | .keyword .«default» =>
    bump
    exportDefault g ctx start
  | .keyword .«class» => declared (classNode g ctx .classDeclaration true)
  | .keyword .function => declared do return (← functionDeclaration g ctx inner false).1
  | _ =>
    if ← atAsyncFunction then declared (asyncFunctionDeclaration g ctx)
    else
      match ← variableWord? with
      | some word => declared (variableDeclaration g ctx word false)
      | none => exportNames g ctx start

def exportItem (g : Grammar) (ctx : Context) : Parse Node := do
  let start ← here
  bump
  exportRest g ctx start

/-! ## Modules -/

def moduleItem (g : Grammar) (ctx : Context) : Parse Node := do
  match ← kind with
  | .keyword .«import» => importItem g ctx
  | .keyword .«export» => exportItem g ctx
  | _ => g.statement ctx true

def moduleItems (g : Grammar) (ctx : Context) : Parse (List Node) :=
  collectUntil isEof (moduleItem g ctx)

end Census.Script
