import Census.Proofs.Except
import Census.Proofs.Json.Grammar
/-!
Strings and natural numbers are read as the grammar writes them. A string ends at its quote whatever
follows; a number ends only where no character follows that would continue it.
-/

namespace Census.Json

variable {c : Char} {s : String} {t rest : List Char}

/-! ## Escapes -/

theorem hexDigit_read : ∀ n < 16,
    ((Nat.digitChar n).utf8Size = 1 ∧ hexValue? (Nat.digitChar n) = some n) ∧
      (Nat.digitChar n).toUpper.utf8Size = 1 ∧ hexValue? (Nat.digitChar n).toUpper = some n := by
  decide

theorem IsHexDigit.read {n : Nat} (h : IsHexDigit n c) : c.utf8Size = 1 ∧ hexValue? c = some n := by
  obtain ⟨hn, rfl | rfl⟩ := h
  · exact (hexDigit_read n hn).1
  · exact (hexDigit_read n hn).2

theorem HexText.read {n : Nat} (h : HexText n t) (rest : List Char) :
    readHex (t ++ rest) = .ok (n, rest) := by
  cases h with
  | digits ha hb hc hd =>
    simp [readHex, byteLength, ha.read, hb.read, hc.read, hd.read]

theorem char_not_surrogate (c : Char) : c.toNat < 0xd800 ∨ 0xdfff < c.toNat := by
  have h := c.valid
  simp only [UInt32.isValidChar, Nat.isValidChar] at h
  have : c.val.toNat = c.toNat := rfl
  omega

theorem readNumbered_single (h : HexText c.toNat t) (rest : List Char) :
    readNumbered (t ++ rest) = .ok (c, rest) := by
  have hc := char_not_surrogate c
  have hlead : isLead c.toNat = false := by simp [isLead]; omega
  have htrail : isTrail c.toNat = false := by simp [isTrail]; omega
  simp [readNumbered, h.read, hlead, htrail]

theorem readNumbered_pair {lead trail : Nat} {u : List Char} (h₁ : 0xd800 ≤ lead)
    (h₂ : lead ≤ 0xdbff) (h₃ : 0xdc00 ≤ trail) (h₄ : trail ≤ 0xdfff)
    (hc : c.toNat = 0x10000 + (lead - 0xd800) * 0x400 + (trail - 0xdc00))
    (ht : HexText lead t) (hu : HexText trail u) (rest : List Char) :
    readNumbered (t ++ '\\' :: 'u' :: u ++ rest) = .ok (c, rest) := by
  have hlead : isTrail lead = false ∧ isLead lead = true := by simp [isTrail, isLead]; omega
  have htrail : isTrail trail = true := by simp [isTrail]; omega
  simp [readNumbered, ht.read, hu.read, hlead, htrail, expectInPair, ← hc]

theorem shortEscapes_read : ∀ e ∈ shortEscapes, ∀ rest, readEscape (e.2 :: rest) = .ok (e.1, rest) := by
  simp [shortEscapes, readEscape]

/-! ## Strings -/

theorem CharText.length_pos (h : CharText c t) : 0 < t.length := by
  cases h <;> simp

/-- One character takes one step. -/
theorem CharText.read (h : CharText c t) (fuel : Nat) (acc rest : List Char) :
    readChars (fuel + 1) acc (t ++ rest) = readChars fuel (c :: acc) rest := by
  cases h with
  | itself hq hb hc =>
    have hn : ¬ c.toNat < 0x20 := by omega
    simp [readChars, hn]
  | short h => simp [readChars, shortEscapes_read _ h]
  | numbered h => simp [readChars, readEscape, readNumbered_single h]
  | pair h₁ h₂ h₃ h₄ hc ht hu =>
    have hp := readNumbered_pair h₁ h₂ h₃ h₄ hc ht hu rest
    simp only [List.cons_append, List.append_assoc] at hp
    simp [readChars, readEscape, hp]

theorem CharsText.read {cs : List Char} (h : CharsText cs t) :
    ∀ (fuel : Nat) (acc rest : List Char), t.length < fuel →
      readChars fuel acc (t ++ '"' :: rest) = .ok (acc.reverse ++ cs, rest) := by
  induction h with
  | nil =>
    intro fuel acc rest hf
    obtain ⟨fuel, rfl⟩ := Nat.exists_eq_succ_of_ne_zero (Nat.ne_zero_of_lt hf)
    simp [readChars]
  | cons hc _ ih =>
    intro fuel acc rest hf
    have := hc.length_pos
    rw [List.length_append] at hf
    obtain ⟨fuel, rfl⟩ := Nat.exists_eq_succ_of_ne_zero (Nat.ne_zero_of_lt hf)
    rw [List.append_assoc, Nat.succ_eq_add_one, hc.read, ih fuel _ rest (by omega)]
    simp

theorem StringText.read (h : StringText s t) (rest : List Char) :
    readToken (t ++ rest) = ⟨.string s, t ++ rest, rest⟩ := by
  cases h with
  | @quoted u h =>
    have hchars : readString (u ++ '"' :: rest) = .ok (s, rest) := by
      have hfuel : u.length < (u ++ '"' :: rest).length + 1 := by
        rw [List.length_append]
        omega
      rw [readString, h.read _ _ _ hfuel]
      simp
    simp [readToken, hchars]

/-! ## Numbers -/

def continuesNumber (c : Char) : Bool := c.isDigit || c == '.' || c == 'e' || c == 'E'

def EndsNumber (rest : List Char) : Prop := ∀ c ∈ rest.head?, continuesNumber c = false

theorem continuesNumber_eq_false :
    continuesNumber c = false ↔ c.isDigit = false ∧ c ≠ '.' ∧ c ≠ 'e' ∧ c ≠ 'E' := by
  simp [continuesNumber, and_assoc]

theorem startsWithDigit_of_ends (h : EndsNumber rest) : startsWithDigit rest = false := by
  cases rest with
  | nil => rfl
  | cons c rest => exact (continuesNumber_eq_false.mp (h c rfl)).1

theorem readTail_of_ends (h : EndsNumber rest) (isNegative : Bool) (n : Nat) :
    readTail isNegative n rest = .ok (whole isNegative n, rest) := by
  cases rest with
  | nil => rfl
  | cons c rest =>
    obtain ⟨-, hp, he, hE⟩ := continuesNumber_eq_false.mp (h c rfl)
    unfold readTail
    split <;> simp_all

theorem le_ofDigitChars (ds : List Char) (n : Nat) : n ≤ Nat.ofDigitChars 10 ds n := by
  induction ds generalizing n with
  | nil => exact Nat.le_refl n
  | cons d ds ih =>
    rw [Nat.ofDigitChars_cons]
    exact Nat.le_trans (by omega) (ih _)

theorem addDigits_of_ends (h : EndsNumber rest) (ds : List Char) (n count : Nat)
    (hd : ∀ d ∈ ds, d.isDigit = true) (hn : Nat.ofDigitChars 10 ds n ≤ largestNatural) :
    addDigits n count (ds ++ rest) = (Nat.ofDigitChars 10 ds n, count + ds.length, rest) := by
  induction ds generalizing n count with
  | nil =>
    cases rest with
    | nil => simp [addDigits, Nat.ofDigitChars]
    | cons c rest => simp [addDigits, (continuesNumber_eq_false.mp (h c rfl)).1, Nat.ofDigitChars]
  | cons d ds ih =>
    rw [Nat.ofDigitChars_cons] at hn ⊢
    have hstep : n * 10 + digitOf d = 10 * n + (d.toNat - '0'.toNat) := by
      rw [digitOf, Nat.mul_comm]
    have hfits : 10 * n + (d.toNat - '0'.toNat) ≤ largestNatural :=
      Nat.le_trans (le_ofDigitChars ds _) hn
    have hguard : (d.isDigit && decide (10 * n + (d.toNat - '0'.toNat) ≤ largestNatural)) = true := by
      rw [hd d List.mem_cons_self, decide_eq_true hfits]
      rfl
    rw [List.cons_append, addDigits, hstep, if_pos hguard,
      ih _ _ (fun e he => hd e (List.mem_cons_of_mem d he)) hn, List.length_cons]
    congr 2
    omega

theorem digitChar_ne_zero : ∀ n < 10, 0 < n → Nat.digitChar n ≠ '0' := by
  decide

theorem head_toDigits_ne_zero (n : Nat) (h : 0 < n) : ∀ c ∈ (Nat.toDigits 10 n).head?, c ≠ '0' := by
  induction n using Nat.strongRecOn with
  | ind n ih =>
    by_cases hn : n < 10
    · simpa [Nat.toDigits_of_lt_base hn] using digitChar_ne_zero n hn h
    · rw [Nat.toDigits_of_base_le (by omega) (by omega), List.head?_append,
        Option.or_of_isSome (by simp [Nat.toDigits_ne_nil])]
      exact ih (n / 10) (by omega) (by omega)

theorem readMagnitude_toString {n : Nat} (hn : n < UInt64.size) (h : EndsNumber rest) :
    readMagnitude false ((toString n).toList ++ rest) = .ok (.natural n, rest) := by
  have hdigits : (toString n).toList = Nat.toDigits 10 n := by simp
  rw [hdigits]
  rcases Nat.eq_zero_or_pos n with rfl | hpos
  · simp [readMagnitude, startsWithDigit_of_ends h, readTail_of_ends h, whole]
  · obtain ⟨d, ds, hds⟩ := List.exists_cons_of_ne_nil (Nat.toDigits_ne_nil (n := n) (b := 10))
    have hall : ∀ c ∈ d :: ds, c.isDigit = true := fun c hc =>
      Nat.isDigit_of_mem_toDigits (by omega) (by omega) (hds ▸ hc)
    have hne : d ≠ '0' := head_toDigits_ne_zero n hpos d (by simp [hds])
    have hval : Nat.ofDigitChars 10 ds (digitOf d) = n := by
      rw [← Nat.ofDigitChars_ten_toDigits (n := n), hds, Nat.ofDigitChars_cons]
      simp [digitOf]
    have hread := addDigits_of_ends h ds (digitOf d) 1 (fun c hc => hall c (by simp [hc]))
      (by rw [hval]; exact Nat.le_sub_one_of_lt hn)
    rw [hval] at hread
    simp [hds, readMagnitude, hall d (by simp), hne, hread, startsWithDigit_of_ends h,
      readTail_of_ends h, whole]

theorem readToken_digit (h : c.isDigit = true) (cs : List Char) :
    readToken (c :: cs) = numberToken false (c :: cs) (c :: cs) := by
  unfold readToken
  dsimp only
  split <;> first | exact absurd h (by decide) | simp [h]

theorem readToken_toString {n : Nat} (hn : n < UInt64.size) (h : EndsNumber rest) :
    readToken ((toString n).toList ++ rest) =
      ⟨.number (.natural n), (toString n).toList ++ rest, rest⟩ := by
  have hread := readMagnitude_toString hn h
  obtain ⟨d, ds, hds⟩ : ∃ d ds, (toString n).toList = d :: ds :=
    List.exists_cons_of_ne_nil (by simp)
  have hd : d.isDigit = true :=
    Nat.isDigit_of_mem_toDigits (b := 10) (n := n) (by omega) (by omega) (by
      rw [← Nat.toList_repr, ← Nat.toString_eq_repr, hds]
      exact List.mem_cons_self)
  rw [hds, List.cons_append] at hread ⊢
  rw [readToken_digit hd, numberToken, hread]

end Census.Json
