/-!
Punctuators, from the longest spelling to the shortest: the first one that the text starts with is
the one that stands there.
-/

namespace Census.Script

inductive Punct where
  | lbrace | rbrace | lparen | rparen | lbracket | rbracket | dot | ellipsis | semi | comma | lt
  | gt | le | ge | eqEq | notEq | eqEqEq | notEqEq | plus | minus | star | slash | percent
  | starStar | plusPlus | minusMinus | shl | shr | ushr | amp | bar | caret | bang | tilde
  | ampAmp | barBar | question | nullish | questionDot | colon | assign | plusAssign
  | minusAssign | starAssign | slashAssign | percentAssign | starStarAssign | shlAssign
  | shrAssign | ushrAssign | ampAssign | barAssign | caretAssign | ampAmpAssign | barBarAssign
  | nullishAssign | arrow | hash | atSign
  deriving DecidableEq, Repr

def Punct.table : List (Punct × String) := [
  (.ushrAssign, ">>>="), (.ellipsis, "..."), (.eqEqEq, "==="), (.notEqEq, "!=="), (.ushr, ">>>"),
  (.starStarAssign, "**="), (.shlAssign, "<<="), (.shrAssign, ">>="), (.ampAmpAssign, "&&="),
  (.barBarAssign, "||="), (.nullishAssign, "??="), (.le, "<="), (.ge, ">="), (.eqEq, "=="),
  (.notEq, "!="), (.starStar, "**"), (.plusPlus, "++"), (.minusMinus, "--"), (.shl, "<<"),
  (.shr, ">>"), (.ampAmp, "&&"), (.barBar, "||"), (.nullish, "??"), (.questionDot, "?."),
  (.plusAssign, "+="), (.minusAssign, "-="), (.starAssign, "*="), (.slashAssign, "/="),
  (.percentAssign, "%="), (.ampAssign, "&="), (.barAssign, "|="), (.caretAssign, "^="),
  (.arrow, "=>"), (.lbrace, "\x7b"), (.rbrace, "\x7d"), (.lparen, "("), (.rparen, ")"),
  (.lbracket, "["), (.rbracket, "]"), (.dot, "."), (.semi, ";"), (.comma, ","), (.lt, "<"),
  (.gt, ">"), (.plus, "+"), (.minus, "-"), (.star, "*"), (.slash, "/"), (.percent, "%"),
  (.amp, "&"), (.bar, "|"), (.caret, "^"), (.bang, "!"), (.tilde, "~"), (.question, "?"),
  (.colon, ":"), (.assign, "="), (.hash, "#"), (.atSign, "@")]

def Punct.spelling (p : Punct) : String :=
  ((Punct.table.find? (·.1 == p)).map Prod.snd).getD ""

def Punct.label : Punct → String
  | .starAssign => "*"
  | p => p.spelling

/-- The longest punctuator at the front of the text. -/
def Punct.atFront? (cs : List Char) : Option (Punct × Nat) :=
  (Punct.table.find? fun entry => entry.2.toList.isPrefixOf cs).map fun entry =>
    (entry.1, entry.2.length)

def Punct.binaryLevel? : Punct → Option Nat
  | .nullish | .barBar => some 1
  | .ampAmp => some 2
  | .bar => some 3
  | .caret => some 4
  | .amp => some 5
  | .eqEq | .notEq | .eqEqEq | .notEqEq => some 6
  | .lt | .gt | .le | .ge => some 7
  | .shl | .shr | .ushr => some 8
  | .plus | .minus => some 9
  | .star | .slash | .percent => some 10
  | .starStar => some 11
  | _ => none

def Punct.isAssignment : Punct → Bool
  | .assign | .plusAssign | .minusAssign | .starAssign | .slashAssign | .percentAssign
  | .starStarAssign | .shlAssign | .shrAssign | .ushrAssign | .ampAssign | .barAssign | .caretAssign
  | .ampAmpAssign | .barBarAssign | .nullishAssign => true
  | _ => false

end Census.Script
