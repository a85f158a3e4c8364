/-!
Words with a meaning of their own. Reserved words are never names; contextual words are names
except where the grammar gives them a meaning, and some of those are refused as names in modules.
-/

namespace Census.Script

inductive Keyword where
  | «break» | case | «catch» | «class» | const | «continue» | debugger | «default» | delete
  | «do» | «else» | «export» | «extends» | false | «finally» | «for» | function | «if» | «import»
  | «in» | instanceof | new | null | «return» | super | switch | this | throw | true | «try»
  | typeof | var | void | «while» | «with»
  deriving DecidableEq, Repr

def Keyword.spelling : Keyword → String
  | .«break» => "break"
  | .case => "case"
  | .«catch» => "catch"
  | .«class» => "class"
  | .const => "const"
  | .«continue» => "continue"
  | .debugger => "debugger"
  | .«default» => "default"
  | .delete => "delete"
  | .«do» => "do"
  | .«else» => "else"
  | .«export» => "export"
  | .«extends» => "extends"
  | .false => "false"
  | .«finally» => "finally"
  | .«for» => "for"
  | .function => "function"
  | .«if» => "if"
  | .«import» => "import"
  | .«in» => "in"
  | .instanceof => "instanceof"
  | .new => "new"
  | .null => "null"
  | .«return» => "return"
  | .super => "super"
  | .switch => "switch"
  | .this => "this"
  | .throw => "throw"
  | .true => "true"
  | .«try» => "try"
  | .typeof => "typeof"
  | .var => "var"
  | .void => "void"
  | .«while» => "while"
  | .«with» => "with"

def Keyword.all : List Keyword := [
  .«break», .case, .«catch», .«class», .const, .«continue», .debugger, .«default», .delete,
  .«do», .«else», .«export», .«extends», .false, .«finally», .«for», .function, .«if», .«import»,
  .«in», .instanceof, .new, .null, .«return», .super, .switch, .this, .throw, .true, .«try»,
  .typeof, .var, .void, .«while», .«with»]

def Keyword.ofSpelling? (s : String) : Option Keyword :=
  Keyword.all.find? (·.spelling == s)

def Keyword.label : Keyword → String
  | .typeof => "typeOf"
  | .instanceof => "instanceOf"
  | k => k.spelling

/-- Words that have a token of their own without being reserved everywhere. -/
inductive Contextual where
  | «abstract» | accessor | any | «as» | assert | asserts | async | await | bigint | boolean
  | declare | enum | «from» | get | global | implements | infer | interface | intrinsic | is
  | keyof | «let» | «meta» | «module» | «namespace» | never | number | object | of | out
  | override | package | «private» | «protected» | «public» | readonly | require | satisfies
  | set | static | string | symbol | target | type | undefined | unique | unknown | using | yield
  deriving DecidableEq, Repr

def Contextual.spelling : Contextual → String
  | .«abstract» => "abstract"
  | .accessor => "accessor"
  | .any => "any"
  | .«as» => "as"
  | .assert => "assert"
  | .asserts => "asserts"
  | .async => "async"
  | .await => "await"
  | .bigint => "bigint"
  | .boolean => "boolean"
  | .declare => "declare"
  | .enum => "enum"
  | .«from» => "from"
  | .get => "get"
  | .global => "global"
  | .implements => "implements"
  | .infer => "infer"
  | .interface => "interface"
  | .intrinsic => "intrinsic"
  | .is => "is"
  | .keyof => "keyof"
  | .«let» => "let"
  | .«meta» => "meta"
  | .«module» => "module"
  | .«namespace» => "namespace"
  | .never => "never"
  | .number => "number"
  | .object => "object"
  | .of => "of"
  | .out => "out"
  | .override => "override"
  | .package => "package"
  | .«private» => "private"
  | .«protected» => "protected"
  | .«public» => "public"
  | .readonly => "readonly"
  | .require => "require"
  | .satisfies => "satisfies"
  | .set => "set"
  | .static => "static"
  | .string => "string"
  | .symbol => "symbol"
  | .target => "target"
  | .type => "type"
  | .undefined => "undefined"
  | .unique => "unique"
  | .unknown => "unknown"
  | .using => "using"
  | .yield => "yield"

def Contextual.all : List Contextual := [
  .«abstract», .accessor, .any, .«as», .assert, .asserts, .async, .await, .bigint, .boolean,
  .declare, .enum, .«from», .get, .global, .implements, .infer, .interface, .intrinsic, .is,
  .keyof, .«let», .«meta», .«module», .«namespace», .never, .number, .object, .of, .out,
  .override, .package, .«private», .«protected», .«public», .readonly, .require, .satisfies,
  .set, .static, .string, .symbol, .target, .type, .undefined, .unique, .unknown, .using, .yield]

def Contextual.ofSpelling? (s : String) : Option Contextual :=
  Contextual.all.find? (·.spelling == s)

/-- Words that are no identifiers in module code. -/
def Contextual.isReserved : Contextual → Bool
  | .await | .enum | .implements | .interface | .«let» | .package | .«private» | .«protected»
  | .«public» | .static | .yield => true
  | _ => false

/-- Words that a module may not bind and that are reported by name when it does. -/
def Contextual.isRefusedAsName (w : Contextual) : Bool := w.isReserved && w != .await

end Census.Script
