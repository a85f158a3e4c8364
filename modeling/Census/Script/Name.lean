import Census.Text.Identifier
/-!
Names. Every name of a script consists of name characters, so no name equals a text with other
characters in it.
-/

namespace Census.Script

/-- The characters of names. A contextual word written with an escape keeps the signs of the escape
in its text. -/
def isNameChar (c : Char) : Bool := Text.isNamePart c || c == '\\' || c == '\x7b' || c == '\x7d'

structure Name where
  text : String
  isName : text.toList.all isNameChar = true
  deriving DecidableEq, Repr

/-- The name made of the name characters of a text. -/
def Name.ofString (s : String) : Name where
  text := String.ofList (s.toList.filter isNameChar)
  isName := by simp

theorem Name.text_ofString {s : String} (h : s.toList.all isNameChar = true) :
    (Name.ofString s).text = s := by
  have : s.toList.filter isNameChar = s.toList := List.filter_eq_self.2 (by simpa using h)
  simp [Name.ofString, this]

end Census.Script
