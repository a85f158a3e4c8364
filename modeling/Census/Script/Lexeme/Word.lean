import Census.Script.Lexeme.Escape
/-!
Words. A word that starts plainly is looked up among the reserved and contextual words after its
escapes are read; a word that starts with an escape is a plain identifier whatever it spells.
-/

namespace Census.Script

open Census.Text (Pos isNamePart)

structure WordChars where
  text : String
  raw : String
  used : Nat
  escaped : Bool
  broken : Option Fault
  /-- Newest first. -/
  faults : List Fault

def isNameCode (n : Nat) : Bool := n.isValidChar && isNamePart (Char.ofNat n)

/-- Reads characters and escapes that may stand in a word. -/
def readWordChars : Nat → List Char → Pos → WordChars → WordChars
  | 0, _, _, w => w
  | fuel + 1, cs, pos, w =>
    match cs with
    | '\\' :: 'u' :: rest =>
      let e := readUnicodeEscape rest
      let used := e.used + 2
      let raw := w.raw ++ String.ofList (cs.take used)
      let w := { w with raw := raw, used := w.used + used, escaped := true }
      match e.meaning with
      | .error cause => { w with broken := some ⟨pos, cause⟩ }
      | .ok codes =>
        let faults := if codes.all isNameCode then w.faults else ⟨pos, .badNameChar⟩ :: w.faults
        let w := { w with text := w.text ++ textOfCodes codes, faults := faults }
        readWordChars fuel (cs.drop used) (pos - used) w
    | '\\' :: _ => { w with used := w.used + 1, broken := some ⟨pos, .notUnicodeEscape⟩ }
    | c :: rest =>
      if isNamePart c then
        let w := { w with text := w.text.push c, raw := w.raw.push c, used := w.used + 1 }
        readWordChars fuel rest (pos - 1) w
      else w
    | [] => w

def wordChars (cs : List Char) (pos : Pos) : WordChars :=
  readWordChars pos cs pos ⟨"", "", 0, false, none, []⟩

/-- The token that a word is. At the start of a text the rules of strict code are not yet in force,
so only words reserved everywhere refuse an escape there. -/
def WordChars.kind (w : WordChars) (atStart startsEscaped : Bool) (pos : Pos) : Kind :=
  match w.broken with
  | some fault => .broken fault
  | none =>
    if startsEscaped then .identifier (.ofString w.text) else
    match Keyword.ofSpelling? w.text with
    | some k => if w.escaped then .broken ⟨pos, .escapedReservedWord w.text⟩ else .keyword k
    | none =>
      match Contextual.ofSpelling? w.text with
      | none => .identifier (.ofString w.text)
      | some c =>
        if w.escaped && c.isReserved && (!atStart || c == .enum) then
          .broken ⟨pos, .escapedReservedWord w.text⟩
        else .contextual c (.ofString w.raw)

def readWord (atStart : Bool) (cs : List Char) (pos : Pos) : Lexeme :=
  let w := wordChars cs pos
  ⟨w.kind atStart (cs.head? == some '\\') pos, w.used, w.faults.reverse⟩

end Census.Script
