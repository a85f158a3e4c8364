import Census.Text.Escape
import Census.Text.Line
/-!
What can be wrong with a script. A fault is a cause and the place it is reported for; the wording of
every cause is in `Cause.message`.
-/

namespace Census.Script

open Census.Text (Pos)

inductive EscapeForm where
  | twoDigits
  | fourDigits
  | braced
  | codePoint
  deriving DecidableEq, Repr

def EscapeForm.describe : EscapeForm → String
  | twoDigits => "2 hex characters"
  | fourDigits => "4 hex characters"
  | braced => "1-6 hex characters"
  | codePoint => "1-6 hex characters in the range 0 to 10FFFF."

inductive Cause where
  -- characters and tokens
  | unexpectedChar (c : Char)
  | unterminatedComment
  | unterminatedString
  | unterminatedTemplate
  | unterminatedRegExp
  | badEscape (form : EscapeForm)
  | unclosedEscape
  | openEscape
  | notUnicodeEscape
  | badNameChar
  | escapedReservedWord (word : String)
  | digitExpected (base : String)
  | exponentExpected
  | nameAfterNumber
  | misplacedSeparator
  | legacyOctal
  | legacyDecimal
  | legacyComment
  | unknownFlags
  | duplicateFlag (c : Char)
  -- a token stands where another one has to
  | expected (what got : String)
  | unexpected (got choices : String)
  | endOfText
  | expressionExpected
  | semicolonExpected
  | statementEndExpected
  | nameExpected
  | initializerExpected
  | patternInitializerExpected
  | catchOrFinallyExpected
  -- names
  | reservedName (name : String)
  | restrictedName
  | awaitAsName
  | argumentsInField
  | spaceAfterHash
  -- expressions
  | unaryBeforePower
  | mixedNullish
  | badAssignmentTarget
  | notAssignable
  | complexAssignmentTarget
  | notPattern
  | emptyParentheses
  | spreadInParentheses
  | arrowNotAllowed
  | breakBeforeArrow
  | deleteName
  | awaitStar
  | awaitOutsideAsync
  | awaitInParameter
  | yieldInParameter
  | newTargetNotAllowed
  | superNotAllowed
  | badSuperCall
  | importNotAllowed
  | importArity
  | newOfOptionalChain
  | taggedOptionalChain
  | optionalMember
  -- functions and classes
  | restNotLast
  | restWithInitializer
  | commaAfterRest
  | restElementNotLast
  | restNotName
  | getterWithParameter
  | setterArity
  | restInSetter
  | strictDirective
  | duplicateConstructor
  | staticConstructor
  | generatorConstructor
  | asyncConstructor
  | accessorConstructor
  | privateConstructor
  | constructorField
  | secondExtends
  -- statements
  | declarationNotAllowed
  | trailingComma
  | breakOutside
  | breakToUnknownLabel
  | continueOutside
  | continueToUnknownLabel
  | duplicateLabel (label : String)
  | labelledFunction
  | labelledGenerator
  | returnOutside
  | breakAfterThrow
  | withStatement
  | secondDefault
  | severalLoopBindings
  | loopBindingInitializer
  | asyncInForOf
  | awaitNotForOf
  | usingNotEnabled
  -- modules
  | moduleItemInside
  | stringImported (name : String)
  | stringExported
  | exportNeedsFrom (name : String)
  deriving DecidableEq, Repr

def Cause.message : Cause → String
  | unexpectedChar c => "Unexpected character " ++ Text.showChar c
  | unterminatedComment => "Unterminated block comment"
  | unterminatedString => "Unterminated string constant"
  | unterminatedTemplate => "Unterminated template"
  | unterminatedRegExp => "Unterminated regexp literal"
  | badEscape form => "Bad character escape sequence, expected " ++ form.describe
  | unclosedEscape => "Invalid unicode escape"
  | openEscape => "Invalid string escape"
  | notUnicodeEscape => "Expected unicode escape"
  | badNameChar => "Invalid character in identifier"
  | escapedReservedWord word => "Unexpected escape sequence in reserved word: " ++ word
  | digitExpected base => "Expected a " ++ base ++ " digit"
  | exponentExpected => "Expected +, - or decimal digit after e"
  | nameAfterNumber => "Identifier cannot follow number"
  | misplacedSeparator => "A numeric separator is only allowed between two digits"
  | legacyOctal => "Legacy octal escape is not permitted in strict mode"
  | legacyDecimal => "Legacy decimal escape is not permitted in strict mode"
  | legacyComment => "Legacy comments cannot be used in module code"
  | unknownFlags => "Unknown regular expression flags."
  | duplicateFlag c => "Duplicated regular expression flag '" ++ c.toString ++ "'."
  | expected what got => "Expected '" ++ what ++ "', got '" ++ got ++ "'"
  | unexpected got choices => "Unexpected token `" ++ got ++ "`. Expected " ++ choices
  | endOfText => "Unexpected eof"
  | expressionExpected => "Expression expected"
  | semicolonExpected | catchOrFinallyExpected => "Expected a semicolon"
  | statementEndExpected => "Expected ';', '\x7d' or <eof>"
  | nameExpected => "Expected ident"
  | initializerExpected => "'const' declarations must be initialized"
  | patternInitializerExpected => "Destructuring bindings require initializers"
  | reservedName name => "`" ++ name ++ "` cannot be used as an identifier in strict mode"
  | restrictedName =>
    "'eval' and 'arguments' cannot be used as a binding identifier in strict mode"
  | awaitAsName => "`await` cannot be used as an identifier in an async context"
  | argumentsInField => "'arguments' is only allowed in functions and class methods"
  | spaceAfterHash => "Unexpected space between # and identifier"
  | unaryBeforePower => "'**' cannot be applied to unary/await expression."
  | mixedNullish =>
    "Nullish coalescing operator(??) requires parens when mixing with logical operators"
  | badAssignmentTarget =>
    "The left-hand side of an assignment expression must be a variable or a property access."
  | notAssignable => "Invalid assignment target"
  | complexAssignmentTarget => "Cannot assign to this"
  | notPattern => "Not a pattern"
  | emptyParentheses => "Parenthesized expression cannot be empty"
  | spreadInParentheses => "Parenthesized expression cannot contain spread operator"
  | arrowNotAllowed => "An arrow function is not allowed here"
  | breakBeforeArrow => "Unexpected line break between arrow head and arrow"
  | deleteName => "'delete' cannot be called on an identifier in strict mode"
  | awaitStar =>
    "`await*` has been removed from the async functions proposal. Use Promise.all() instead."
  | awaitOutsideAsync => "await isn't allowed in non-async function"
  | awaitInParameter => "`await` expressions cannot be used in a parameter initializer."
  | yieldInParameter => "'yield' cannot be used as a parameter within generator"
  | newTargetNotAllowed =>
    "'new.target' is only allowed in the body of a function declaration, function expression, or class."
  | superNotAllowed => "Invalid access to super"
  | badSuperCall => "Invalid `super()`"
  | importNotAllowed => "Import is not allowed here"
  | importArity => "`import()` requires exactly one or two arguments"
  | newOfOptionalChain => "Constructor in/after an optional chaining is not allowed."
  | taggedOptionalChain => "Tagged template literal is not allowed in optional chain."
  | optionalMember => "An object member cannot be declared optional"
  | restNotLast => "A rest parameter must be last in a parameter list"
  | restWithInitializer => "A rest parameter cannot have an initializer"
  | commaAfterRest => "Trailing comma isn't permitted after a rest element"
  | restElementNotLast => "Rest element must be final element"
  | restNotName => "`...` must be followed by an identifier in declaration contexts"
  | getterWithParameter => "A `get` accessor cannot have parameters"
  | setterArity => "A `set` accessor must have exactly one parameter"
  | restInSetter => "Rest pattern is not allowed in setter"
  | strictDirective =>
    "Illegal 'use strict' directive in function with non-simple parameter list."
  | duplicateConstructor => "A class can only have one constructor"
  | staticConstructor => "'static' modifier cannot appear on a constructor declaration"
  | generatorConstructor => "A constructor cannot be generator"
  | asyncConstructor => "Constructor can't be an async function"
  | accessorConstructor => "Class constructor can't be an accessor."
  | privateConstructor => "Classes can't have a private field named '#constructor'."
  | constructorField => "Classes may not have a non-static field named 'constructor'"
  | secondExtends => "'extends' clause already seen"
  | declarationNotAllowed => "Declaration is not allowed"
  | trailingComma => "Trailing comma is not allowed"
  | breakOutside =>
    "A 'break' statement can only be used within an enclosing iteration or switch statement"
  | breakToUnknownLabel =>
    "A 'break' statement can only jump to a label of an enclosing statement"
  | continueOutside =>
    "A 'continue' statement can only jump to a label of an enclosing iteration statement"
  | continueToUnknownLabel => "Jump target cannot cross function boundary"
  | duplicateLabel label => "Label " ++ label ++ " is already declared"
  | labelledFunction => "Function cannot be labelled in strict mode"
  | labelledGenerator => "Generator or async function cannot be labelled"
  | returnOutside => "Return statement is not allowed here"
  | breakAfterThrow => "LineBreak cannot follow 'throw'"
  | withStatement => "With statement are not allowed in strict mode"
  | secondDefault => "A switch block cannot have multiple defaults"
  | severalLoopBindings => "Expected one variable binding"
  | loopBindingInitializer => "Unexpected initializer in for in/of loop"
  | asyncInForOf => "The left-hand side of a `for...of` statement may not be `async`"
  | awaitNotForOf => "for await syntax is valid only for for-of statement"
  | usingNotEnabled =>
    "Using declaration is not enabled. Set jsc.parser.explicitResourceManagement to true"
  | moduleItemInside => "'import', and 'export' cannot be used outside of module code"
  | stringImported name =>
    "A string literal cannot be used as an imported binding.\n- Did you mean `import \x7b \"" ++ name
      ++ "\" as foo \x7d`?"
  | stringExported => "A string literal cannot be used as an exported binding without `from`."
  | exportNeedsFrom name => "`" ++ name ++ "` cannot be used without `from` clause"

structure Fault where
  pos : Pos
  cause : Cause
  deriving DecidableEq, Repr

/-- Faults that only strict module code has. -/
def Cause.isModuleRule : Cause → Bool
  | legacyOctal | legacyDecimal | legacyComment => true
  | _ => false

end Census.Script
