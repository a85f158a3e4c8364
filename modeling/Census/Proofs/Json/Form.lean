import Census.Proofs.Json.Spelling
import Census.Proofs.Json.Tokens
/-!
Well-formed JSON texts, whether or not a reader can say what they stand for: numbers of any size and with
any exponent, escapes that are no characters, and any depth.
-/

namespace Census.Json

/-! ## Strings -/

inductive CharForm : List Char → Prop where
  | itself {c : Char} : c ≠ '"' → c ≠ '\\' → 0x20 ≤ c.toNat → CharForm [c]
  | short {c d : Char} : (c, d) ∈ shortEscapes → CharForm ['\\', d]
  | numbered {n : Nat} {t : List Char} : HexText n t → CharForm ('\\' :: 'u' :: t)

inductive CharsForm : List Char → Prop where
  | nil : CharsForm []
  | cons {t u : List Char} : CharForm t → CharsForm u → CharsForm (t ++ u)

inductive StringForm : List Char → Prop where
  | quoted {t : List Char} : CharsForm t → StringForm ('"' :: t ++ ['"'])

/-! ## Numbers -/

def AllDigits (ds : List Char) : Prop := ∀ d ∈ ds, d.isDigit = true

inductive WholeForm : List Char → Prop where
  | zero : WholeForm ['0']
  | digits {d : Char} {ds : List Char} : d.isDigit = true → d ≠ '0' → AllDigits ds →
      WholeForm (d :: ds)

inductive ExponentForm : List Char → Prop where
  | plain {d : Char} {ds : List Char} : AllDigits (d :: ds) → ExponentForm (d :: ds)
  | up {d : Char} {ds : List Char} : AllDigits (d :: ds) → ExponentForm ('+' :: d :: ds)
  | down {d : Char} {ds : List Char} : AllDigits (d :: ds) → ExponentForm ('-' :: d :: ds)

inductive PowerForm : List Char → Prop where
  | none : PowerForm []
  | lower {t : List Char} : ExponentForm t → PowerForm ('e' :: t)
  | upper {t : List Char} : ExponentForm t → PowerForm ('E' :: t)

/-- What may follow the digits in front of the point. -/
inductive TailForm : List Char → Prop where
  | power {t : List Char} : PowerForm t → TailForm t
  | point {d : Char} {ds t : List Char} : AllDigits (d :: ds) → PowerForm t →
      TailForm ('.' :: d :: ds ++ t)

inductive MagnitudeForm : List Char → Prop where
  | parts {w t : List Char} : WholeForm w → TailForm t → MagnitudeForm (w ++ t)

inductive NumberForm : List Char → Prop where
  | plain {t : List Char} : MagnitudeForm t → NumberForm t
  | negative {t : List Char} : MagnitudeForm t → NumberForm ('-' :: t)

/-! ## Values -/

/-- What stands in front of the value of a member, given the text of its key. -/
inductive MemberLead : List Char → List Char → Prop where
  | colon {a key b : List Char} : Blanks a → StringForm key → Blanks b →
      MemberLead key (a ++ key ++ b ++ [':'])

mutual

inductive ValueForm : List Char → Prop where
  | null : ValueForm "null".toList
  | boolean (b : Bool) : ValueForm (toString b).toList
  | number {t : List Char} : NumberForm t → ValueForm t
  | string {t : List Char} : StringForm t → ValueForm t
  | emptyArray {t : List Char} : Blanks t → ValueForm ('[' :: t ++ [']'])
  | array {t : List Char} : ItemsForm t → ValueForm ('[' :: t ++ [']'])
  | emptyObject {t : List Char} : Blanks t → ValueForm ('\x7b' :: t ++ ['\x7d'])
  | object {keys : List (List Char)} {t : List Char} : MembersForm keys t →
      ValueForm ('\x7b' :: t ++ ['\x7d'])

inductive ElementForm : List Char → Prop where
  | spaced {a t b : List Char} : Blanks a → ValueForm t → Blanks b → ElementForm (a ++ t ++ b)

inductive ItemsForm : List Char → Prop where
  | last {t : List Char} : ElementForm t → ItemsForm t
  | more {t u : List Char} : ElementForm t → ItemsForm u → ItemsForm (t ++ ',' :: u)

/-- One member or more, and the texts of the keys. -/
inductive MembersForm : List (List Char) → List Char → Prop where
  | last {key lead t : List Char} : MemberLead key lead → ElementForm t →
      MembersForm [key] (lead ++ t)
  | more {key lead t u : List Char} {keys : List (List Char)} : MemberLead key lead → ElementForm t →
      MembersForm keys u → MembersForm (key :: keys) (lead ++ t ++ ',' :: u)

end

/-! ## Texts that stand for a value

Every text of the grammar of values is well-formed. -/

theorem CharsText.form {cs t : List Char} (h : CharsText cs t) : CharsForm t := by
  induction h with
  | nil => exact .nil
  | cons hc _ ih =>
    cases hc with
    | itself hquote hslash hc => exact .cons (.itself hquote hslash hc) ih
    | short hd => exact .cons (.short hd) ih
    | numbered ht => exact .cons (.numbered ht) ih
    | pair _ _ _ _ _ ht hu =>
      have hpair := CharsForm.cons (.numbered ht) (.cons (.numbered hu) ih)
      simpa using hpair

theorem StringText.form {s : String} {t : List Char} (h : StringText s t) : StringForm t := by
  cases h with
  | quoted h => exact .quoted h.form

theorem numberForm_toString (n : Nat) : NumberForm (toString n).toList := by
  have hdigits : (toString n).toList = Nat.toDigits 10 n := by simp
  have hwhole : WholeForm (Nat.toDigits 10 n) := by
    rcases Nat.eq_zero_or_pos n with rfl | hpos
    · exact .zero
    · obtain ⟨d, ds, hds⟩ := List.exists_cons_of_ne_nil (Nat.toDigits_ne_nil (n := n) (b := 10))
      have hall : ∀ c ∈ d :: ds, c.isDigit = true := fun c hc =>
        Nat.isDigit_of_mem_toDigits (by omega) (by omega) (hds ▸ hc)
      rw [hds]
      exact .digits (hall d (by simp)) (head_toDigits_ne_zero n hpos d (by simp [hds]))
        fun c hc => hall c (by simp [hc])
  have hform := NumberForm.plain (.parts hwhole (.power .none))
  rwa [List.append_nil, ← hdigits] at hform

mutual

theorem ValueText.form {n : Nat} {v : Value} {t : List Char} : ValueText n v t → ValueForm t
  | .null => .null
  | .boolean => .boolean _
  | .natural _ => .number (numberForm_toString _)
  | .string hs => .string hs.form
  | .emptyArray ht => .emptyArray ht
  | .array h => .array h.form
  | .emptyObject ht => .emptyObject ht
  | .object h => by
    obtain ⟨keys, hkeys⟩ := h.form
    exact .object hkeys

theorem ElementText.form {n : Nat} {v : Value} {t : List Char} : ElementText n v t → ElementForm t
  | .spaced ha h hb => .spaced ha h.form hb

theorem ItemsText.form {n : Nat} {vs : List Value} {t : List Char} : ItemsText n vs t → ItemsForm t
  | .last h => .last h.form
  | .more h hs => .more h.form hs.form

theorem MemberText.form {n : Nat} {m : String × Value} {t : List Char} :
    MemberText n m t → ∃ key lead u, MemberLead key lead ∧ ElementForm u ∧ t = lead ++ u
  | .colon ha hkey hb h => ⟨_, _, _, .colon ha hkey.form hb, h.form, by simp⟩

theorem MembersText.form {n : Nat} {ms : List (String × Value)} {t : List Char} :
    MembersText n ms t → ∃ keys, MembersForm keys t
  | .last h => by
    obtain ⟨key, lead, u, hlead, hu, rfl⟩ := h.form
    exact ⟨_, .last hlead hu⟩
  | .more h hs => by
    obtain ⟨key, lead, u, hlead, hu, rfl⟩ := h.form
    obtain ⟨keys, hkeys⟩ := hs.form
    exact ⟨_, .more hlead hu hkeys⟩

end

end Census.Json
