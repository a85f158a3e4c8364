import Census.Script.Grammar.Function
/-!
Classes and their members.
-/

namespace Census.Script

open Census.Text (Pos)
open Parse

/-- A key that makes a method the constructor: the name or the string, not a computed key. -/
def isConstructorKey (key : Node) : Bool :=
  match key.construct with
  | .identifier name => name.text == "constructor"
  | .stringLiteral value => value == "constructor"
  | _ => false

/-- What has been read of a member before its key. -/
structure MemberStart where
  start : Pos
  /-- Where the word `static` stands, if it is a modifier. -/
  staticAt : Option Pos

def classKey (g : Grammar) (ctx : Context) : Parse Node := do
  if ← isPunct .hash then
    let name ← privateName
    match name.construct with
    | .privateName text => if text.text == "constructor" then report name.start .privateConstructor
    | _ => pure ()
    return name
  else propertyKey g ctx

/-- The next token ends a field or starts its value. -/
def atFieldEnd (linesCount : Bool) : Parse Bool := do
  match ← kind with
  | .punct .assign | .punct .rbrace => return true
  | _ => if linesCount then atStatementEnd else isPunct .semi

def method (g : Grammar) (ctx : Context) (m : MemberStart) (key : Node) (role : MemberRole)
    (isAsync isGenerator : Bool) : Parse Node := do
  let arity : Arity :=
    match role with
    | .get => .getter key.start
    | .set => .setter key.start
    | _ => .any
  let rest ← methodRest g ctx isAsync isGenerator arity
  return .mk (.classMember role) (← spanFrom m.start) (key :: rest)

def constructorMember (g : Grammar) (ctx : Context) (m : MemberStart) (key : Node) :
    Parse Node := do
  let inside := { ctx with inField := false }
  let rest ← parametersAndBodyOfConstructor inside
  match m.staticAt with
  | some pos => report pos .staticConstructor
  | none => pure ()
  return .mk (.classMember .construct) (← spanFrom m.start) (key :: rest)
where
  parametersAndBodyOfConstructor (ctx : Context) : Parse (List Node) :=
    parametersAndBody g { ctx with directSuper := true } false false .constructor

def fieldMember (g : Grammar) (ctx : Context) (m : MemberStart) (key : Node) : Parse Node := do
  if isConstructorKey key then failAt key.start .constructorField
  else
    let value ←
      if ← eat .assign then
        let v ← g.assignment { ctx with inField := true, inOperator := true }
        pure [v]
      else pure []
    let span ← spanFrom m.start
    if !(← eatStatementEnd) then reportHere .semicolonExpected
    return .mk .field span (key :: value)

def staticBlock (g : Grammar) (ctx : Context) (start : Pos) : Parse Node := do
  let body ← block g { ctx with inStaticBlock := true, inField := true }
  return .mk .staticBlock (← spanFrom start) [body]

/-- An accessor, an async method, or nothing that a class can hold. -/
def modifiedMember (g : Grammar) (ctx : Context) (m : MemberStart) (key : Node)
    (accessor : Option MemberRole) : Parse Node := do
  if (key.name?.map Name.text) == some "async" && !(← afterBreak) then
    let isGenerator ← eat .star
    let key ← classKey g ctx
    if isConstructorKey key then failAt key.start .asyncConstructor
    else method g ctx m key .method true isGenerator
  else
    match accessor with
    | some role =>
      let inner ← classKey g ctx
      if isConstructorKey inner then report key.start .accessorConstructor
      method g ctx m inner role false false
    | none => unexpected "* for generator, private key, identifier or async"

/-- The accessor that a key stands for, if what follows lets it be one. -/
def accessorRole? (key : Node) : Parse (Option MemberRole) := do
  let role : Option MemberRole :=
    match key.name?.map Name.text with
    | some "get" => some .get
    | some "set" => some .set
    | _ => none
  let newLineStar := (← afterBreak) && (← isPunct .star)
  if newLineStar || (← atFieldEnd false) then return none
  else return role

def memberAfterModifiers (g : Grammar) (ctx : Context) (m : MemberStart) : Parse Node := do
  if ← eat .star then
    let key ← classKey g ctx
    if isConstructorKey key then report m.start .generatorConstructor
    method g ctx m key .method false true
  else
    let key ← classKey g ctx
    if ← isPunct .lparen then
      if isConstructorKey key then constructorMember g ctx m key
      else method g ctx m key .method false false
    else
      let accessor ← accessorRole? key
      if accessor.isNone && (← atFieldEnd true) then fieldMember g ctx m key
      else modifiedMember g ctx m key accessor

/-- A member that starts with the word `static`, which may be its key. -/
def staticMember (g : Grammar) (ctx : Context) (start : Pos) (word : Node) : Parse Node := do
  let asKey : MemberStart := ⟨start, none⟩
  let asModifier : MemberStart := ⟨start, some word.start⟩
  if ← isPunct .lparen then method g ctx asKey word .method false false
  else if ← atFieldEnd false then fieldMember g ctx asKey word
  else if ← isPunct .lbrace then staticBlock g ctx start
  else if (← isContextual .static) && (← peek).kind == .punct .lbrace then
    bump
    staticBlock g ctx start
  else memberAfterModifiers g ctx asModifier

def classMember (g : Grammar) (ctx : Context) : Parse Node := do
  let start ← here
  if ← isContextual .static then
    let word := (← anyName).node
    staticMember g ctx start word
  else memberAfterModifiers g ctx ⟨start, none⟩

/-- Members up to the closing brace. Every constructor after the first is reported. -/
def classMembers (g : Grammar) (ctx : Context) : Parse (List Node) :=
  repeating (([] : List Node), false) fun (acc, hasConstructor) => do
    if ← isPunct .rbrace then return .inr acc.reverse
    else if ← isPunct .semi then
      let start ← here
      bump
      return .inl (.leaf .emptyStatement (← spanFrom start) :: acc, hasConstructor)
    else
      let m ← classMember g { ctx with directSuper := true }
      let isConstructor := m.construct == .classMember .construct
      if isConstructor && hasConstructor then report m.start .duplicateConstructor
      return .inl (m :: acc, hasConstructor || isConstructor)

def heritage (g : Grammar) (ctx : Context) : Parse Node := do
  let start ← here
  let parent ← g.leftHand ctx
  return .mk .heritage (← spanFrom start) [parent]

/-- A class from its keyword, as its parts: name, body, heritage. -/
def classParts (g : Grammar) (ctx : Context) (nameRequired : Bool) : Parse (List Node) := do
  let ctx := { ctx with inClass := true }
  bump
  let name ← maybeBindingName ctx nameRequired true
  let parent ←
    if ← eatKeyword .«extends» then
      let h ← heritage g ctx
      pure [h]
    else pure []
  if ← isKeyword .«extends» then
    let again ← here
    bump
    report again .secondExtends
    let _ ← g.leftHand ctx
  let bodyStart ← here
  expect .lbrace
  let members ← classMembers g ctx
  expect .rbrace
  let body := Node.mk .classBody (← spanFrom bodyStart) members
  return (name.map Ident.node).toList ++ [body] ++ parent

def classNode (g : Grammar) (ctx : Context) (construct : Construct) (nameRequired : Bool) :
    Parse Node := do
  let start ← here
  let parts ← classParts g ctx nameRequired
  return .mk construct (← spanFrom start) parts

end Census.Script
