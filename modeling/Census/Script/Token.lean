import Census.Number.Numeral
import Census.Script.Fault
import Census.Script.Name
import Census.Script.Punct
import Census.Script.Word
/-!
Tokens of a script and the cursor that reads them.
-/

namespace Census.Script

open Census.Text (Pos)
open Census.Number (Numeral)

structure Cursor where
  rest : List Char
  pos : Pos
  deriving DecidableEq, Repr

namespace Cursor

def ofText (cs : List Char) : Cursor := ⟨cs, cs.length⟩

/-- Passes over the first `n` characters. -/
def skip (c : Cursor) (n : Nat) : Cursor := ⟨c.rest.drop n, c.pos - n⟩

def front? (c : Cursor) : Option Char := c.rest.head?

end Cursor

inductive Kind where
  | punct (p : Punct)
  | keyword (w : Keyword)
  /-- A contextual word and the name that it is where it has no meaning of its own. -/
  | contextual (w : Contextual) (name : Name)
  | identifier (name : Name)
  | number (value : Numeral)
  | bigint
  /-- A string and whether it is written exactly as it reads. -/
  | string (value : String) (verbatim : Bool)
  | regExp
  | templateWhole (badEscape : Option Fault)
  | templateHead (badEscape : Option Fault)
  | templateMiddle (badEscape : Option Fault)
  | templateTail (badEscape : Option Fault)
  /-- No token: the text here cannot be read. -/
  | broken (fault : Fault)
  | eof
  deriving DecidableEq, Repr

def Kind.label : Kind → String
  | punct p => p.label
  | keyword w => w.label
  | contextual w _ => w.spelling
  | identifier _ => "ident"
  | number _ => "numeric literal"
  | bigint => "bigint literal"
  | string _ _ => "string literal"
  | regExp => "regexp literal"
  | templateWhole _ => "no substitution template literal"
  | templateHead _ => "template head"
  | templateMiddle _ => "template middle"
  | templateTail _ => "template tail"
  | broken _ => "<lexing error>"
  | eof => "<eof>"

/-- A token, the place where it was read from and the place where it ends. -/
structure Token where
  kind : Kind
  source : Cursor
  stop : Pos
  /-- A line ends between the token before and this one. -/
  afterBreak : Bool
  deriving DecidableEq, Repr

def Token.start (t : Token) : Pos := t.source.pos

def Kind.name? : Kind → Option Name
  | keyword w => some (.ofString w.spelling)
  | contextual _ name => some name
  | identifier name => some name
  | _ => none

/-- A word that can name something in module code. -/
def Kind.isReference : Kind → Bool
  | identifier _ => true
  | contextual w _ => !w.isReserved
  | _ => false

end Census.Script
