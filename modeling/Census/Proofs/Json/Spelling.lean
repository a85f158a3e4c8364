import Census.Proofs.Json.Scalar
import Census.Proofs.Text.Sequence
/-!
From tokens back to texts: what has been read as a string, a word or a natural number is written as the
grammar has it, and takes at least one character.
-/

namespace Census.Json

open Census.Text (toNat_ofNat_of_valid)

variable {c : Char} {n m : Nat} {cs acc rest t : List Char} {s : String}

/-- What is behind a front of at least one character is shorter than the whole. -/
theorem length_lt_cons_append : rest.length < (c :: (t ++ rest)).length := by
  rw [List.length_cons, List.length_append]
  omega

/-! ## Escapes -/

theorem toNat_digitChar : ∀ n < 16,
    (Nat.digitChar n).toNat = (if n < 10 then 48 else 87) + n ∧
      (10 ≤ n → (Nat.digitChar n).toUpper.toNat = 55 + n) := by
  decide

theorem isHexDigit_of_hexValue (h : hexValue? c = some n) : IsHexDigit n c := by
  have hzero : '0'.toNat = 48 := rfl
  have ha : 'a'.toNat = 97 := rfl
  have hA : 'A'.toNat = 65 := rfl
  have hbetween {a b : Char} (hc : (decide (a ≤ c) && decide (c ≤ b)) = true) :
      a.toNat ≤ c.toNat ∧ c.toNat ≤ b.toNat := by
    simpa [Char.le_def, UInt32.le_iff_toNat_le] using hc
  unfold hexValue? at h
  split at h
  · rename_i hc
    obtain ⟨hlow, hhigh⟩ := hbetween (a := '0') (b := '9') hc
    have hnine : '9'.toNat = 57 := rfl
    have hn : n < 16 := by simp at h; omega
    refine ⟨hn, .inl (Char.toNat_inj.mp ?_)⟩
    have hdigit := (toNat_digitChar n hn).1
    simp at h
    rw [hdigit, if_pos (by omega)]
    omega
  · split at h
    · rename_i hc
      obtain ⟨hlow, hhigh⟩ := hbetween hc
      have hf : 'f'.toNat = 102 := rfl
      have hn : n < 16 := by simp at h; omega
      refine ⟨hn, .inl (Char.toNat_inj.mp ?_)⟩
      have hdigit := (toNat_digitChar n hn).1
      simp at h
      rw [hdigit, if_neg (by omega)]
      omega
    · split at h
      · rename_i hc
        obtain ⟨hlow, hhigh⟩ := hbetween hc
        have hF : 'F'.toNat = 70 := rfl
        have hn : n < 16 := by simp at h; omega
        refine ⟨hn, .inr (Char.toNat_inj.mp ?_)⟩
        simp at h
        rw [(toNat_digitChar n hn).2 (by omega)]
        omega
      · contradiction

theorem mapM_eq_cons {α β : Type} {f : α → Option β} {as : List α} {b : β} {bs : List β}
    (h : as.mapM f = some (b :: bs)) : ∃ a rest, as = a :: rest ∧ f a = some b ∧ rest.mapM f = some bs := by
  cases as with
  | nil => simp at h
  | cons a rest =>
    rw [List.mapM_cons] at h
    refine ⟨a, rest, rfl, ?_⟩
    cases ha : f a <;> cases hrest : rest.mapM f <;> simp_all

theorem mapM_eq_nil {α β : Type} {f : α → Option β} {as : List α} (h : as.mapM f = some []) :
    as = [] := by
  cases as with
  | nil => rfl
  | cons a rest =>
    rw [List.mapM_cons] at h
    cases ha : f a <;> cases hrest : rest.mapM f <;> simp_all

theorem readHex_spells (h : readHex cs = .ok (n, rest)) : ∃ t, HexText n t ∧ cs = t ++ rest := by
  unfold readHex at h
  split at h
  · contradiction
  · split at h
    · rename_i a b x y hvalues
      obtain ⟨rfl, rfl⟩ : ((a * 16 + b) * 16 + x) * 16 + y = n ∧ cs.drop 4 = rest := by simpa using h
      obtain ⟨c₁, _, htake, h₁, hvalues⟩ := mapM_eq_cons hvalues
      obtain ⟨c₂, _, rfl, h₂, hvalues⟩ := mapM_eq_cons hvalues
      obtain ⟨c₃, _, rfl, h₃, hvalues⟩ := mapM_eq_cons hvalues
      obtain ⟨c₄, _, rfl, h₄, hvalues⟩ := mapM_eq_cons hvalues
      obtain rfl := mapM_eq_nil hvalues
      refine ⟨[c₁, c₂, c₃, c₄], ?_, ?_⟩
      · exact .digits (isHexDigit_of_hexValue h₁) (isHexDigit_of_hexValue h₂)
          (isHexDigit_of_hexValue h₃) (isHexDigit_of_hexValue h₄)
      · rw [← htake, List.take_append_drop]
    · contradiction

theorem HexText.lt (h : HexText n t) : n < 0x10000 := by
  cases h with
  | digits ha hb hc hd =>
    have := ha.1
    have := hb.1
    have := hc.1
    have := hd.1
    omega

theorem expectInPair_spells {sign : Char} (h : expectInPair sign cs = .ok rest) : cs = sign :: rest := by
  unfold expectInPair at h
  split at h
  · contradiction
  · split at h
    · rename_i heq
      rw [eq_of_beq heq, Except.ok.inj h]
    · contradiction

/-- A number that is no half of a pair is the number of a character. -/
theorem charText_numbered {t : List Char} (ht : HexText n t) (hlead : isLead n = false)
    (htrail : isTrail n = false) : CharText (Char.ofNat n) ('\\' :: 'u' :: t) := by
  have hlt := ht.lt
  simp only [isLead, isTrail, Bool.and_eq_false_iff, decide_eq_false_iff_not] at hlead htrail
  have hvalid : n.isValidChar := by
    by_cases hlow : n < 0xd800
    · exact .inl hlow
    · exact .inr ⟨by omega, by omega⟩
  refine .numbered ?_
  rw [toNat_ofNat_of_valid hvalid]
  exact ht

/-- The two halves of a pair make a character. -/
theorem charText_pair {lead trail : Nat} {t u : List Char} (hlead : isLead lead = true)
    (htrail : isTrail trail = true) (ht : HexText lead t) (hu : HexText trail u) :
    CharText (Char.ofNat (0x10000 + (lead - 0xd800) * 0x400 + (trail - 0xdc00)))
      ('\\' :: 'u' :: t ++ '\\' :: 'u' :: u) := by
  simp only [isLead, isTrail, Bool.and_eq_true, decide_eq_true_eq] at hlead htrail
  exact .pair hlead.1 hlead.2 htrail.1 htrail.2
    (toNat_ofNat_of_valid (.inr ⟨by omega, by omega⟩)) ht hu

theorem readNumbered_spells (h : readNumbered cs = .ok (c, rest)) :
    ∃ t, CharText c ('\\' :: 'u' :: t) ∧ cs = t ++ rest := by
  unfold readNumbered at h
  cases hfirst : readHex cs with
  | error fault => simp [hfirst] at h
  | ok r =>
    obtain ⟨lead, cs₁⟩ := r
    obtain ⟨t, ht, rfl⟩ := readHex_spells hfirst
    simp only [hfirst, ok_bind] at h
    split at h
    · contradiction
    · rename_i htrail
      split at h
      · rename_i hlead
        cases hslash : expectInPair '\\' cs₁ with
        | error fault => simp [hslash] at h
        | ok cs₂ =>
          obtain rfl := expectInPair_spells hslash
          cases hu : expectInPair 'u' cs₂ with
          | error fault => simp [hslash, hu] at h
          | ok cs₃ =>
            obtain rfl := expectInPair_spells hu
            cases hsecond : readHex cs₃ with
            | error fault => simp [hslash, hu, hsecond] at h
            | ok r =>
              obtain ⟨trail, cs₄⟩ := r
              obtain ⟨u, ht', rfl⟩ := readHex_spells hsecond
              simp only [hslash, hu, hsecond, ok_bind] at h
              split at h
              · rename_i htrail'
                obtain ⟨rfl, rfl⟩ : Char.ofNat (0x10000 + (lead - 0xd800) * 0x400 + (trail - 0xdc00)) = c ∧
                    cs₄ = rest := by simpa using h
                exact ⟨t ++ '\\' :: 'u' :: u, charText_pair hlead htrail' ht ht', by simp⟩
              · contradiction
      · rename_i hlead
        obtain ⟨rfl, rfl⟩ : Char.ofNat lead = c ∧ cs₁ = rest := by simpa using h
        exact ⟨t, charText_numbered ht (by simpa using hlead) (by simpa using htrail), rfl⟩

theorem readEscape_spells (h : readEscape cs = .ok (c, rest)) :
    ∃ t, CharText c ('\\' :: t) ∧ cs = t ++ rest := by
  have hshort {d e : Char} {rest' : List Char} (hmem : (d, e) ∈ shortEscapes)
      (heq : (Except.ok (d, rest') : Except Fault _) = .ok (c, rest)) :
      ∃ t, CharText c ('\\' :: t) ∧ e :: rest' = t ++ rest := by
    obtain ⟨rfl, rfl⟩ : d = c ∧ rest' = rest := by simpa using heq
    exact ⟨[e], .short hmem, rfl⟩
  unfold readEscape at h
  split at h
  case h_10 => 
    obtain ⟨t, ht, rfl⟩ := readNumbered_spells h
    exact ⟨'u' :: t, ht, rfl⟩
  case h_1 => contradiction
  case h_11 => contradiction
  all_goals exact hshort (by decide) h

/-! ## Strings -/

theorem readChars_spells {fuel : Nat} {chars : List Char}
    (h : readChars fuel acc cs = .ok (chars, rest)) :
    ∃ more t, chars = acc.reverse ++ more ∧ CharsText more t ∧ cs = t ++ '"' :: rest := by
  induction fuel generalizing acc cs with
  | zero => contradiction
  | succ fuel ih =>
    unfold readChars at h
    split at h
    · contradiction
    · obtain ⟨rfl, rfl⟩ : acc.reverse = chars ∧ _ = rest := by simpa using h
      exact ⟨[], [], by simp, .nil, rfl⟩
    · split at h
      · rename_i c after hescape
        obtain ⟨t, ht, rfl⟩ := readEscape_spells hescape
        obtain ⟨more, u, rfl, hu, rfl⟩ := ih h
        exact ⟨c :: more, '\\' :: t ++ u, by simp, .cons ht hu, by simp⟩
      · contradiction
    · rename_i c after hquote hslash
      split at h
      · contradiction
      · rename_i hc
        obtain ⟨more, u, rfl, hu, rfl⟩ := ih h
        have hchar : CharText c [c] := .itself hquote hslash (Nat.not_lt.mp hc)
        exact ⟨c :: more, [c] ++ u, by simp, .cons hchar hu, by simp⟩

theorem readString_spells (h : readString cs = .ok (s, rest)) :
    ∃ t, StringText s ('"' :: t) ∧ cs = t ++ rest := by
  unfold readString at h
  split at h
  · rename_i chars after hchars
    obtain ⟨rfl, rfl⟩ : String.ofList chars = s ∧ after = rest := by simpa using h
    obtain ⟨more, t, rfl, ht, rfl⟩ := readChars_spells hchars
    refine ⟨t ++ ['"'], .quoted ?_, by simp⟩
    simpa using ht
  · contradiction

/-! ## Numbers

A number with a point, an exponent or more digits than fit is rounded, so a natural number has been read
from its digits alone. -/

theorem addDigits_spells {value count value' count' : Nat}
    (h : addDigits value count cs = (value', count', rest)) :
    ∃ ds, cs = ds ++ rest ∧ (∀ d ∈ ds, d.isDigit = true) ∧ value' = Nat.ofDigitChars 10 ds value ∧
      (value ≤ largestNatural → value' ≤ largestNatural) := by
  induction cs generalizing value count with
  | nil =>
    obtain ⟨rfl, -, rfl⟩ : value = value' ∧ count = count' ∧ [] = rest := by simpa [addDigits] using h
    exact ⟨[], rfl, by simp, rfl, id⟩
  | cons c cs ih =>
    rw [addDigits] at h
    split at h
    · rename_i hc
      obtain ⟨hdigit, hfits⟩ : c.isDigit = true ∧ value * 10 + digitOf c ≤ largestNatural := by
        simpa using hc
      obtain ⟨ds, rfl, hds, rfl, hle⟩ := ih h
      refine ⟨c :: ds, rfl, ?_, ?_, fun _ => hle hfits⟩
      · intro d hd
        rcases List.mem_cons.mp hd with rfl | hd
        · exact hdigit
        · exact hds d hd
      · rw [Nat.ofDigitChars_cons, Nat.mul_comm 10, digitOf]
    · obtain ⟨rfl, -, rfl⟩ : value = value' ∧ count = count' ∧ c :: cs = rest := by simpa using h
      exact ⟨[], rfl, by simp, rfl, id⟩

theorem length_skipDigits_le (cs : List Char) : (skipDigits cs).length ≤ cs.length :=
  (List.dropWhile_suffix _).length_le

theorem length_addExponentDigits_le (value : Nat) (cs : List Char) :
    (addExponentDigits value cs).2.2.length ≤ cs.length := by
  induction cs generalizing value with
  | nil => exact Nat.le_refl _
  | cons c cs ih =>
    rw [addExponentDigits]
    split
    · split
      · exact Nat.le_succ_of_le (ih _)
      · exact Nat.le_succ _
    · exact Nat.le_refl _

/-- What is read here is a rounded number, and takes characters from the front of the text. -/
def Rounds (cs : List Char) (r : Except Fault (Number × List Char)) : Prop :=
  ∀ x rest, r = .ok (x, rest) → (∃ isNegative f, x = .rounded isNegative f) ∧ rest.length ≤ cs.length

theorem rounds_error {fault : Fault} : Rounds cs (.error fault) := nofun

theorem rounds_ok {isNegative : Bool} {f : Number.Binary64} (h : rest.length ≤ cs.length) :
    Rounds cs (.ok (.rounded isNegative f, rest)) := by
  intro x rest' heq
  obtain ⟨rfl, rfl⟩ : Number.rounded isNegative f = x ∧ rest = rest' := by simpa using heq
  exact ⟨⟨isNegative, f, rfl⟩, h⟩

theorem Rounds.mono {r : Except Fault (Number × List Char)} (h : Rounds rest r)
    (hle : rest.length ≤ cs.length) : Rounds cs r :=
  fun x rest' hr => ⟨(h x rest' hr).1, Nat.le_trans (h x rest' hr).2 hle⟩

theorem scaled_rounds (isNegative : Bool) (significand : Nat) (exponent : Int) (cs : List Char) :
    Rounds cs (scaled isNegative significand exponent cs) := by
  unfold scaled
  split
  · exact rounds_ok (Nat.le_refl _)
  · exact rounds_error

theorem readExponentDigits_rounds (isNegative : Bool) (significand : Nat) (power : Int)
    (isDown : Bool) (cs : List Char) :
    Rounds cs (readExponentDigits isNegative significand power isDown cs) := by
  unfold readExponentDigits
  split
  · exact rounds_error
  · rename_i c rest
    split
    · exact rounds_error
    · have hdigits := length_addExponentDigits_le (digitOf c) rest
      cases hread : addExponentDigits (digitOf c) rest with
      | mk value r =>
        obtain ⟨fits, after⟩ := r
        have hskip := length_skipDigits_le after
        rw [hread] at hdigits
        dsimp only at hdigits ⊢
        split
        · exact (scaled_rounds _ _ _ _).mono (by rw [List.length_cons]; omega)
        · split
          · exact rounds_error
          · exact rounds_ok (by rw [List.length_cons]; omega)

theorem readExponent_rounds (isNegative : Bool) (significand : Nat) (power : Int) (cs : List Char) :
    Rounds cs (readExponent isNegative significand power cs) := by
  unfold readExponent
  split
  · exact (readExponentDigits_rounds _ _ _ _ _).mono (by simp)
  · exact (readExponentDigits_rounds _ _ _ _ _).mono (by simp)
  · exact readExponentDigits_rounds _ _ _ _ _

theorem readPower_rounds (isNegative : Bool) (significand : Nat) (power : Int) (cs : List Char) :
    Rounds cs (readPower isNegative significand power cs) := by
  unfold readPower
  split
  · exact (readExponent_rounds _ _ _ _).mono (by simp)
  · exact (readExponent_rounds _ _ _ _).mono (by simp)
  · exact scaled_rounds _ _ _ _

theorem readFraction_rounds (isNegative : Bool) (significand : Nat) (power : Int) (cs : List Char) :
    Rounds cs (readFraction isNegative significand power cs) := by
  unfold readFraction
  cases hdigits : addDigits significand 0 cs with
  | mk value r =>
    obtain ⟨count, rest⟩ := r
    obtain ⟨ds, rfl, -⟩ := addDigits_spells hdigits
    have hskip := length_skipDigits_le rest
    dsimp only
    split
    · exact (readPower_rounds _ _ _ _).mono (by rw [List.length_append]; omega)
    · split
      · exact rounds_error
      · exact (readPower_rounds _ _ _ _).mono (by simp)

/-- A number without a point and an exponent is one of the digits before. -/
theorem readTail_cases {isNegative : Bool} {significand : Nat} {x : Number}
    (h : readTail isNegative significand cs = .ok (x, rest)) :
    (x = whole isNegative significand ∧ rest = cs) ∨
      (∃ b f, x = .rounded b f) ∧ rest.length ≤ cs.length := by
  unfold readTail at h
  split at h
  · exact .inr (((readFraction_rounds _ _ _ _).mono (by simp)) x rest h)
  · exact .inr (((readExponent_rounds _ _ _ _).mono (by simp)) x rest h)
  · exact .inr (((readExponent_rounds _ _ _ _).mono (by simp)) x rest h)
  · obtain ⟨rfl, rfl⟩ : whole isNegative significand = x ∧ cs = rest := by simpa using h
    exact .inl ⟨rfl, rfl⟩

theorem whole_cases (isNegative : Bool) (n : Nat) :
    whole isNegative n = .natural m → isNegative = false ∧ n = m := by
  unfold whole
  cases isNegative
  · simp
  · simp only [Bool.not_true, Bool.false_eq_true, if_false]
    split <;> simp

theorem digitOf_lt {c : Char} (hc : c.isDigit = true) : digitOf c < 10 := by
  have hbounds := Char.isDigit_iff_toNat.mp hc
  have hzero : '0'.toNat = 48 := rfl
  have hnine : '9'.toNat = 57 := rfl
  rw [digitOf]
  omega

theorem digitOf_pos {c : Char} (hc : c.isDigit = true) (hne : c ≠ '0') : 0 < digitOf c := by
  have hbounds := Char.isDigit_iff_toNat.mp hc
  have hnat : c.toNat ≠ '0'.toNat := fun heq => hne (Char.toNat_inj.mp heq)
  rw [digitOf]
  omega

theorem digitChar_digitOf {c : Char} (hc : c.isDigit = true) : Nat.digitChar (digitOf c) = c := by
  have hbounds := Char.isDigit_iff_toNat.mp hc
  have hzero : '0'.toNat = 48 := rfl
  apply Char.toNat_inj.mp
  rw [Nat.toNat_digitChar_of_lt_ten (digitOf_lt hc), digitOf]
  omega

theorem toDigits_ofDigitChars {ds : List Char} (hn : 0 < n) (hds : ∀ d ∈ ds, d.isDigit = true) :
    Nat.toDigits 10 (Nat.ofDigitChars 10 ds n) = Nat.toDigits 10 n ++ ds := by
  induction ds generalizing n with
  | nil => simp [Nat.ofDigitChars]
  | cons d ds ih =>
    have hd := hds d List.mem_cons_self
    have hmore : Nat.toDigits 10 (10 * n + digitOf d) = Nat.toDigits 10 n ++ [d] := by
      rw [← Nat.toDigits_append_toDigits (by omega) hn (digitOf_lt hd),
        Nat.toDigits_of_lt_base (digitOf_lt hd), digitChar_digitOf hd]
    rw [Nat.ofDigitChars_cons, ← digitOf, ih (by omega) fun e he => hds e (List.mem_cons_of_mem d he),
      hmore]
    simp

/-- Digits that do not begin with a zero are how their number is written. -/
theorem toString_ofDigitChars {c : Char} {ds : List Char} (hc : c.isDigit = true) (hne : c ≠ '0')
    (hds : ∀ d ∈ ds, d.isDigit = true) :
    (toString (Nat.ofDigitChars 10 ds (digitOf c))).toList = c :: ds := by
  calc (toString (Nat.ofDigitChars 10 ds (digitOf c))).toList
      = Nat.toDigits 10 (Nat.ofDigitChars 10 ds (digitOf c)) := by simp
    _ = Nat.toDigits 10 (digitOf c) ++ ds := toDigits_ofDigitChars (digitOf_pos hc hne) hds
    _ = c :: ds := by
      rw [Nat.toDigits_of_lt_base (digitOf_lt hc), digitChar_digitOf hc, List.singleton_append]

/-- A number is longer than nothing, and a natural one is written as the grammar has it. -/
theorem readMagnitude_spells {isNegative : Bool} {x : Number}
    (h : readMagnitude isNegative cs = .ok (x, rest)) :
    rest.length < cs.length ∧ (x = .natural m →
      isNegative = false ∧ m < UInt64.size ∧ cs = (toString m).toList ++ rest) := by
  have hrounded {y : Number} (hy : ∃ b f, y = .rounded b f) : y ≠ .natural m := by
    obtain ⟨b, f, rfl⟩ := hy
    nofun
  unfold readMagnitude at h
  split at h
  · contradiction
  · rename_i c after
    split at h
    · contradiction
    · rename_i hdigit
      have hc : c.isDigit = true := by simpa using hdigit
      split at h
      · rename_i hzero
        obtain rfl := eq_of_beq hzero
        split at h
        · contradiction
        · rcases readTail_cases h with ⟨rfl, rfl⟩ | ⟨hr, hle⟩
          · refine ⟨by simp, fun hm => ?_⟩
            obtain ⟨rfl, rfl⟩ := whole_cases _ _ hm
            exact ⟨rfl, by decide, rfl⟩
          · exact ⟨Nat.lt_succ_of_le hle, fun hm => absurd hm (hrounded hr)⟩
      · rename_i hnonzero
        cases hdigits : addDigits (digitOf c) 1 after with
        | mk value r =>
          obtain ⟨count, behind⟩ := r
          obtain ⟨ds, rfl, hds, hvalue, hle⟩ := addDigits_spells hdigits
          rw [hdigits] at h
          dsimp only at h
          split at h
          · have hskip := length_skipDigits_le behind
            have hbehind : (ds ++ behind).length = ds.length + behind.length := List.length_append
            split at h
            · rename_i fraction hpoint
              rw [hpoint, List.length_cons] at hskip
              obtain ⟨hr, hshort⟩ := readFraction_rounds _ _ _ _ x rest h
              exact ⟨by rw [List.length_cons]; omega, fun hm => absurd hm (hrounded hr)⟩
            · obtain ⟨hr, hshort⟩ := readPower_rounds _ _ _ _ x rest h
              exact ⟨by rw [List.length_cons]; omega, fun hm => absurd hm (hrounded hr)⟩
          · rcases readTail_cases h with ⟨rfl, rfl⟩ | ⟨hr, hshort⟩
            · refine ⟨length_lt_cons_append, fun hm => ?_⟩
              obtain ⟨rfl, rfl⟩ := whole_cases _ _ hm
              have hne : c ≠ '0' := by simpa using hnonzero
              have hsmall : digitOf c ≤ largestNatural :=
                Nat.le_trans (Nat.le_of_lt (digitOf_lt hc)) (by decide)
              refine ⟨rfl, Nat.lt_of_le_of_lt (hle hsmall) (by decide), ?_⟩
              rw [hvalue, toString_ofDigitChars hc hne hds, List.cons_append]
            · refine ⟨?_, fun hm => absurd hm (hrounded hr)⟩
              rw [List.length_cons, List.length_append]
              omega

end Census.Json
