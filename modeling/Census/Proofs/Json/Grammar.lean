import Census.Json.Value
/-!
The grammar of JSON texts, apart from any reader: which texts stand for a value. Strings, words, lists and
objects are those of JSON with all their escapes and blanks; the only numbers are the natural ones that
fit into 64 bits. The first argument of a relation is the number of levels that a value may open.
-/

namespace Census.Json

def Blanks (cs : List Char) : Prop := ∀ c ∈ cs, c ∈ [' ', '\n', '\t', '\r']

instance (cs : List Char) : Decidable (Blanks cs) :=
  List.decidableBAll (fun c => c ∈ [' ', '\n', '\t', '\r']) cs

theorem blanks_nil : Blanks [] := nofun

/-! ## Strings -/

def IsHexDigit (n : Nat) (c : Char) : Prop :=
  n < 16 ∧ (c = Nat.digitChar n ∨ c = (Nat.digitChar n).toUpper)

inductive HexText : Nat → List Char → Prop where
  | digits {a b c d : Nat} {w x y z : Char} : IsHexDigit a w → IsHexDigit b x → IsHexDigit c y →
      IsHexDigit d z → HexText (((a * 16 + b) * 16 + c) * 16 + d) [w, x, y, z]

/-- Characters with an escape of two characters, and the second of these. -/
def shortEscapes : List (Char × Char) := [
  ('"', '"'), ('\\', '\\'), ('/', '/'), ('\x08', 'b'), ('\x0c', 'f'), ('\n', 'n'), ('\r', 'r'),
  ('\t', 't')]

/-- A character and a way to write it between quotes. -/
inductive CharText : Char → List Char → Prop where
  | itself {c : Char} : c ≠ '"' → c ≠ '\\' → 0x20 ≤ c.toNat → CharText c [c]
  | short {c d : Char} : (c, d) ∈ shortEscapes → CharText c ['\\', d]
  | numbered {c : Char} {t : List Char} : HexText c.toNat t → CharText c ('\\' :: 'u' :: t)
  /-- Characters beyond U+FFFF are written as two numbers. -/
  | pair {c : Char} {lead trail : Nat} {t u : List Char} : 0xd800 ≤ lead → lead ≤ 0xdbff →
      0xdc00 ≤ trail → trail ≤ 0xdfff →
      c.toNat = 0x10000 + (lead - 0xd800) * 0x400 + (trail - 0xdc00) →
      HexText lead t → HexText trail u → CharText c ('\\' :: 'u' :: t ++ '\\' :: 'u' :: u)

inductive CharsText : List Char → List Char → Prop where
  | nil : CharsText [] []
  | cons {c : Char} {cs t ts : List Char} : CharText c t → CharsText cs ts →
      CharsText (c :: cs) (t ++ ts)

inductive StringText : String → List Char → Prop where
  | quoted {s : String} {t : List Char} : CharsText s.toList t → StringText s ('"' :: t ++ ['"'])

/-! ## Values -/

/-- The members that a reader keeps of those that are written in an object. -/
def keptMembers (members : List (String × Value)) : List (String × Value) :=
  members.foldl (fun kept m => insertMember m.1 m.2 kept) []

mutual

inductive ValueText : Nat → Value → List Char → Prop where
  | null {n : Nat} : ValueText n .null "null".toList
  | boolean {n : Nat} {b : Bool} : ValueText n (.boolean b) (toString b).toList
  | natural {n m : Nat} : m < UInt64.size → ValueText n (.number (.natural m)) (toString m).toList
  | string {n : Nat} {s : String} {t : List Char} : StringText s t → ValueText n (.string s) t
  | emptyArray {n : Nat} {t : List Char} : Blanks t → ValueText (n + 1) (.array []) ('[' :: t ++ [']'])
  | array {n : Nat} {items : List Value} {t : List Char} : ItemsText n items t →
      ValueText (n + 1) (.array items) ('[' :: t ++ [']'])
  | emptyObject {n : Nat} {t : List Char} : Blanks t →
      ValueText (n + 1) (.object []) ('\x7b' :: t ++ ['\x7d'])
  | object {n : Nat} {members : List (String × Value)} {t : List Char} : MembersText n members t →
      ValueText (n + 1) (.object (keptMembers members)) ('\x7b' :: t ++ ['\x7d'])

/-- A value with blanks before and after it. -/
inductive ElementText : Nat → Value → List Char → Prop where
  | spaced {n : Nat} {v : Value} {a t b : List Char} : Blanks a → ValueText n v t → Blanks b →
      ElementText n v (a ++ t ++ b)

/-- One item or more. -/
inductive ItemsText : Nat → List Value → List Char → Prop where
  | last {n : Nat} {v : Value} {t : List Char} : ElementText n v t → ItemsText n [v] t
  | more {n : Nat} {v : Value} {vs : List Value} {t u : List Char} : ElementText n v t →
      ItemsText n vs u → ItemsText n (v :: vs) (t ++ ',' :: u)

inductive MemberText : Nat → String × Value → List Char → Prop where
  | colon {n : Nat} {key : String} {v : Value} {a t b u : List Char} : Blanks a → StringText key t →
      Blanks b → ElementText n v u → MemberText n (key, v) (a ++ t ++ b ++ ':' :: u)

/-- One member or more. -/
inductive MembersText : Nat → List (String × Value) → List Char → Prop where
  | last {n : Nat} {m : String × Value} {t : List Char} : MemberText n m t → MembersText n [m] t
  | more {n : Nat} {m : String × Value} {ms : List (String × Value)} {t u : List Char} :
      MemberText n m t → MembersText n ms u → MembersText n (m :: ms) (t ++ ',' :: u)

end

/-- A JSON text whose values nest less deep than readers go. -/
def IsDocument (v : Value) (text : List Char) : Prop := ElementText (depthLimit - 1) v text

end Census.Json
