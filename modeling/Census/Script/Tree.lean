import Census.Number.Numeral
import Census.Script.Name
import Census.Script.Punct
import Census.Text.Line
/-!
The tree of a script. A node says which construct it is, which stretch of the text it covers, and
what its parts are, in the order in which they are visited. That is the order of the text except at
two constructs: a class lists its body before the class that it extends, and a `do` loop lists its
test before its body.
-/

namespace Census.Script

open Census.Text (Pos)
open Census.Number (Numeral)

/-- From one place to another. Places count what is still to come, so `stop ≤ start`. -/
structure Span where
  start : Pos
  stop : Pos
  deriving DecidableEq, Repr

inductive MemberRole where
  | construct
  | method
  | get
  | set
  deriving DecidableEq, Repr

inductive UnaryOperator where
  | delete
  | void
  | typeof
  | sign (p : Punct)
  deriving DecidableEq, Repr

inductive BinaryOperator where
  | symbol (p : Punct)
  | membership
  | instanceof
  deriving DecidableEq, Repr

/-- The kinds of nodes. The comment behind a kind lists its parts. -/
inductive Construct where
  -- names, keys and literals
  | identifier (name : Name)
  | privateName (name : Name)
  | stringLiteral (value : String)
  | numberLiteral (value : Numeral)
  | bigintLiteral
  | constantLiteral
  | regExpLiteral
  | computedKey -- expression
  -- expressions
  | invalid
  | hole
  | thisExpression
  | superReference
  | importReference
  | newTarget
  | importMeta
  /-- A comma after the last element is kept when something stands before it. -/
  | array (comma : Option Pos) -- elements
  | object (comma : Option Pos) -- members
  | spread -- expression
  | property -- key, value
  | shorthand -- name
  | shorthandWithValue -- name, value
  | objectMember (role : MemberRole) -- key, parameters, body
  | parenthesized -- expression
  | sequence -- expressions
  | functionExpression (name : Option Name) -- name if any, parameters, body
  | arrow (blockBody : Bool) -- parameters, body
  | classExpression -- name if any, body, heritage if any
  | template -- expressions
  | taggedTemplate -- tag, template
  | unary (op : UnaryOperator) -- operand
  | update -- operand
  | await -- operand
  | yield -- operand if any
  | binary (op : BinaryOperator) -- operands
  | assignment (op : Punct) -- target, value
  | conditional -- test, two values
  | call -- callee, arguments
  | construction -- callee, arguments
  | member -- object, key
  | superMember -- key
  /-- A member access or a call at or after a `?.`. -/
  | chained -- member or call
  -- patterns
  | arrayPattern -- elements
  | objectPattern -- members
  | propertyPattern -- key, pattern
  | shorthandPattern -- name, default if any
  | withDefault -- pattern, default
  | rest -- pattern
  -- classes
  | classBody -- members
  | heritage -- expression
  | classMember (role : MemberRole) -- key, parameters, body
  | field -- key, value if any
  | staticBlock -- body
  -- statements
  | functionDeclaration (name : Name) -- name, parameters, body
  | classDeclaration -- name, body, heritage if any
  | variableDeclaration -- declarators
  | declarator -- pattern, initial value if any
  | expressionStatement -- expression
  | block -- statements
  | emptyStatement
  | debuggerStatement
  | jump -- label if any
  | conditionalStatement -- test, one or two statements
  | whileLoop -- test, body
  | doLoop -- test, body
  | forLoop -- head, body
  | forInLoop -- target, value, body
  | forOfLoop -- target, value, body
  | switch -- value, cases
  | switchCase -- test if any, statements
  | tryStatement -- block, handler and finalizer if any
  | handler -- pattern if any, block
  | throwStatement -- expression
  | returnStatement -- expression if any
  | labelled -- name, statement
  | withStatement -- object, body
  -- modules
  | importDeclaration -- attributes if any
  | exportNames -- attributes if any
  | exportDeclaration -- declaration
  | exportDefault -- expression
  /-- A default export that declares a function or a class, which may have no name. -/
  | exportDefaultDeclaration -- function or class
  deriving DecidableEq, Repr

inductive Node where
  | mk (construct : Construct) (span : Span) (parts : List Node)
  deriving Repr

namespace Node

def construct : Node → Construct
  | mk c _ _ => c

def span : Node → Span
  | mk _ s _ => s

def parts : Node → List Node
  | mk _ _ ps => ps

def start (n : Node) : Pos := n.span.start

@[match_pattern] abbrev leaf (c : Construct) (s : Span) : Node := mk c s []

/-- The name of a node that is a plain identifier. -/
def name? : Node → Option Name
  | leaf (.identifier name) _ => some name
  | _ => none

def isArrow (n : Node) : Bool :=
  match n.construct with
  | .arrow _ => true
  | _ => false

def isChained (n : Node) : Bool := n.construct == .chained

/-- An object or a list in brackets, which can be read again as a pattern. -/
def isPatternLike (n : Node) : Bool :=
  match n.construct with
  | .array _ | .object _ => true
  | _ => false

/-- The names that strict code keeps from being bound or assigned. -/
def isRestrictedName (name : Name) : Bool := name.text == "eval" || name.text == "arguments"

/-- A target that strict code may assign to: a name that is not restricted, or a member of something
that is not an optional chain. Parentheses do not matter. -/
def isSimpleTarget : Node → Bool
  | mk (.identifier name) _ _ => !isRestrictedName name
  | mk .parenthesized _ [inner] => inner.isSimpleTarget
  | mk .member _ (object :: _) =>
    match object.construct with
    | .member => object.isSimpleTarget
    | .chained => false
    | _ => true
  | mk .superMember _ _ => true
  | _ => false

/-- The constructs that may stand before `=` at all, whether or not they are simple targets. -/
def isTarget (n : Node) : Bool :=
  match n.construct with
  | .identifier _ | .member | .superMember | .chained | .parenthesized | .invalid | .arrayPattern
  | .objectPattern => true
  | _ => false

end Node

/-- A name where it stands in the text. -/
structure Ident where
  name : Name
  span : Span
  deriving DecidableEq, Repr

namespace Ident

def start (i : Ident) : Pos := i.span.start

def node (i : Ident) : Node := .leaf (.identifier i.name) i.span

end Ident

structure Module where
  items : List Node
  deriving Repr

end Census.Script
