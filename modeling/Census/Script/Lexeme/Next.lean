import Census.Script.Lexeme.Trivia
import Census.Script.Lexeme.Numeral
import Census.Script.Lexeme.Quoted
/-!
The next token of a script. A slash is always read as a punctuator here, and a brace never as the
end of a template's hole: the reader of expressions reads those tokens again where it expects them.
-/

namespace Census.Script

/-- The token at the front of a text that starts neither with a blank nor with a comment. -/
def readLexeme (atStart : Bool) (cs : List Char) (pos : Text.Pos) : Lexeme :=
  match cs with
  | [] => ⟨.eof, 0, []⟩
  | '\x60' :: _ => readTemplate true cs pos
  | '?' :: '.' :: c :: _ =>
    if c.isDigit then ⟨.punct .question, 1, []⟩ else ⟨.punct .questionDot, 2, []⟩
  | '.' :: c :: _ =>
    if c.isDigit then readNumber cs pos
    else
      match Punct.atFront? cs with
      | some (p, n) => ⟨.punct p, n, []⟩
      | none => Lexeme.broken 1 [] pos (.unexpectedChar '.')
  | c :: _ =>
    if c == '"' || c == '\'' then readString c cs pos
    else if c.isDigit then readNumber cs pos
    else if c == '\\' || Text.isNameStart c then readWord atStart cs pos
    else
      match Punct.atFront? cs with
      | some (p, n) => ⟨.punct p, n, []⟩
      | none => Lexeme.broken 1 [] pos (.unexpectedChar c)

/-- A token, the characters after it and the faults found on the way, in the order found. -/
structure Lexed where
  token : Token
  cursor : Cursor
  faults : List Fault
  deriving DecidableEq, Repr

def Lexeme.toLexed (l : Lexeme) (source : Cursor) (afterBreak : Bool) (before : List Fault) :
    Lexed :=
  { token := ⟨l.kind, source, source.pos - l.used, afterBreak⟩
    cursor := source.skip l.used
    faults := before ++ l.faults }

def Cursor.next (c : Cursor) (atStart : Bool) : Lexed :=
  let gap := c.skipTrivia atStart
  (readLexeme atStart gap.cursor.rest gap.cursor.pos).toLexed gap.cursor gap.sawBreak
    gap.faults.reverse

/-- The characters after a line that starts with `#!`, which only the start of a text may have. -/
def Cursor.skipHashbang (c : Cursor) : Cursor :=
  match c.rest with
  | '#' :: '!' :: _ =>
    let n := (c.rest.takeWhile fun c => !Text.isLineTerminator c).length
    c.skip n
  | _ => c

end Census.Script
