import Census.Script.Lexeme.Word
import Census.Text.Blank
/-!
Strings, templates and regular expressions.
-/

namespace Census.Script

open Census.Text (Pos isLineTerminator isNameStart)

/-- The string that has been read, where its closing quote is missing. -/
def unclosedString (start pos : Pos) (codes : List Nat) (faults : List Fault) : Lexeme :=
  ⟨.string (textOfCodes codes.reverse) false, start - pos,
    (⟨start, .unterminatedString⟩ :: faults).reverse⟩

/-- The rest of a string. `start` is the place of the opening quote, `codes` are the code points read
so far, newest first. A string that is not closed is still a string. -/
def readStringRest (quote : Char) (start : Pos) :
    Nat → List Char → Pos → List Nat → Bool → List Fault → Lexeme
  | 0, _, pos, codes, _, faults => unclosedString start pos codes faults
  | fuel + 1, cs, pos, codes, verbatim, faults =>
    match cs with
    | [] => unclosedString start pos codes faults
    | '\\' :: rest =>
      let e := readEscape rest
      let after := pos - 1 - e.used
      let faults := if e.misplaced then ⟨pos, .misplacedSeparator⟩ :: faults else faults
      match e.meaning with
      | .error cause => Lexeme.broken (start - after) faults.reverse pos cause
      | .ok new =>
        let faults := if e.legacyOctal then ⟨pos, .legacyOctal⟩ :: faults else faults
        readStringRest quote start fuel (rest.drop e.used) after (new.reverse ++ codes) false faults
    | c :: rest =>
      if c == quote then
        ⟨.string (textOfCodes codes.reverse) verbatim, start - pos + 1, faults.reverse⟩
      else if c == '\n' || c == '\r' then unclosedString start pos codes faults
      else readStringRest quote start fuel rest (pos - 1) (c.toNat :: codes) verbatim faults

def readString (quote : Char) (cs : List Char) (pos : Pos) : Lexeme :=
  readStringRest quote pos pos (cs.drop 1) (pos - 1) [] true []

/-- The rest of a stretch of a template, after the backquote or brace at `start`. `opened` tells
whether the stretch is the first one. -/
def readTemplateRest (opened : Bool) (start : Pos) :
    Nat → List Char → Pos → Option Fault → Lexeme
  | 0, _, pos, _ => Lexeme.broken (start - pos) [] start .unterminatedTemplate
  | fuel + 1, cs, pos, bad =>
    match cs with
    | [] => Lexeme.broken (start - pos) [] start .unterminatedTemplate
    | '\x60' :: _ =>
      ⟨if opened then .templateWhole bad else .templateTail bad, start - pos + 1, []⟩
    | '$' :: '{' :: _ =>
      ⟨if opened then .templateHead bad else .templateMiddle bad, start - pos + 2, []⟩
    | '\\' :: rest =>
      let e := readEscape rest
      let found : Option Fault :=
        match e.meaning with
        | .error cause => some ⟨pos, cause⟩
        | .ok _ => if e.legacyOctal then some ⟨pos, .legacyOctal⟩ else none
      readTemplateRest opened start fuel (rest.drop e.used) (pos - 1 - e.used) (bad.or found)
    | _ :: rest => readTemplateRest opened start fuel rest (pos - 1) bad

/-- A stretch of a template, from the backquote or the brace that starts it. -/
def readTemplate (opened : Bool) (cs : List Char) (pos : Pos) : Lexeme :=
  readTemplateRest opened pos pos (cs.drop 1) (pos - 1) none

/-- The length of the rest of a regular expression, its closing slash included. -/
def regExpRest (escaped inClass : Bool) : List Char → Nat → Except Nat Nat
  | [], used => .error used
  | c :: cs, used =>
    if isLineTerminator c then .error used
    else if escaped then regExpRest false inClass cs (used + 1)
    else if c == '/' && !inClass then .ok (used + 1)
    else
      let inClass := if c == '[' then true else if c == ']' then false else inClass
      regExpRest (c == '\\') inClass cs (used + 1)

def isKnownFlag (c : Char) : Bool := "dgimsuvy".toList.contains c

/-- The first letter that stands twice. -/
def duplicate? : List Char → Option Char
  | [] => none
  | c :: cs => if cs.contains c then some c else duplicate? cs

/-- A regular expression, from its opening slash. -/
def readRegExp (cs : List Char) (pos : Pos) : Lexeme :=
  match regExpRest false false (cs.drop 1) 1 with
  | .error used => Lexeme.broken used [] pos .unterminatedRegExp
  | .ok used =>
    let rest := cs.drop used
    match rest.head? with
    | none => ⟨.regExp, used, []⟩
    | some c =>
      if !isNameStart c then ⟨.regExp, used, []⟩ else
      let w := wordChars rest (pos - used)
      match w.broken with
      | some fault => ⟨.broken fault, used + w.used, w.faults.reverse⟩
      | none =>
        let flags := w.text.toList
        let unknown := if flags.all isKnownFlag then [] else [⟨pos, .unknownFlags⟩]
        let doubled := (duplicate? flags).toList.map fun c => (⟨pos, .duplicateFlag c⟩ : Fault)
        ⟨.regExp, used + w.used, w.faults.reverse ++ unknown ++ doubled⟩

end Census.Script
