/-!
White space and line ends. Two sets of blanks are in use: the ones that separate the tokens of a
script, and the ones that have the Unicode property `White_Space`.
-/

namespace Census.Text

/-- Line ends for the grammar of a script. Only the first two of them start a new numbered line. -/
def isLineTerminator (c : Char) : Bool :=
  c == '\n' || c == '\r' || c == '\u2028' || c == '\u2029'

/-- Blanks between the tokens of a script, line terminators not included. -/
def isScriptBlank (c : Char) : Bool :=
  c == '\t' || c == '\x0b' || c == '\x0c' || c == ' ' || c == '\x85' || c == '\xa0' ||
    c == '\u1680' || ('\u2000' ≤ c && c ≤ '\u200b') || c == '\u202f' || c == '\u205f' ||
    c == '\u3000' || c == '\ufeff'

/-- The Unicode property `White_Space`. -/
def isBlank (c : Char) : Bool :=
  ('\t' ≤ c && c ≤ '\r') || c == ' ' || c == '\x85' || c == '\xa0' || c == '\u1680' ||
    ('\u2000' ≤ c && c ≤ '\u200a') || c == '\u2028' || c == '\u2029' || c == '\u202f' ||
    c == '\u205f' || c == '\u3000'

def trimEnd (cs : List Char) : List Char := (cs.reverse.dropWhile isBlank).reverse

end Census.Text
