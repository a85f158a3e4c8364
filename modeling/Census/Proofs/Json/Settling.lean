import Census.Proofs.Json.Form
/-!
What is read of a well-formed number or string does not depend on the text behind it. It may be nothing: a
number may be too large, and an escape may be half of a pair.
-/

namespace Census.Json

open Census.Number (Binary64)

variable {α : Type} {cs ds t u rest : List Char}

/-- Reading a text that something else follows gives one answer, whatever follows. -/
def Settles (read : List Char → Except Fault (α × List Char)) (t : List Char) : Prop :=
  ∃ o : Option α, ∀ rest, EndsNumber rest → (read (t ++ rest)).toOption = o.map (·, rest)

theorem settles_error {read : List Char → Except Fault (α × List Char)}
    (h : ∀ rest, EndsNumber rest → ∃ e, read (t ++ rest) = .error e) : Settles read t := by
  refine ⟨none, fun rest hrest => ?_⟩
  obtain ⟨e, he⟩ := h rest hrest
  rw [he]
  rfl

theorem Settles.congr {read read' : List Char → Except Fault (α × List Char)} (h : Settles read t)
    (heq : ∀ rest, EndsNumber rest → read' (u ++ rest) = read (t ++ rest)) : Settles read' u := by
  obtain ⟨o, ho⟩ := h
  refine ⟨o, fun rest hrest => ?_⟩
  rw [heq rest hrest, ho rest hrest]

/-! ## Digits -/

theorem skipDigits_append (hds : AllDigits ds) (h : startsWithDigit rest = false) :
    skipDigits (ds ++ rest) = rest := by
  rw [skipDigits, List.dropWhile_append_of_pos hds]
  cases rest with
  | nil => rfl
  | cons c rest =>
    have hc : c.isDigit = false := h
    rw [List.dropWhile_cons, hc]
    rfl

theorem startsWithDigit_append {d : Char} (hds : AllDigits (d :: ds)) :
    startsWithDigit (d :: ds ++ rest) = true := hds d List.mem_cons_self

theorem AllDigits.tail {d : Char} (h : AllDigits (d :: ds)) : AllDigits ds := fun e he =>
  h e (List.mem_cons_of_mem d he)

/-- The digits that fit are the same whatever follows the digits. -/
theorem addDigits_append (value count : Nat) (hds : AllDigits ds) :
    ∃ front back, ds = front ++ back ∧ ∃ value', ∀ rest, startsWithDigit rest = false →
      addDigits value count (ds ++ rest) = (value', count + front.length, back ++ rest) := by
  induction ds generalizing value count with
  | nil =>
    refine ⟨[], [], rfl, value, fun rest hrest => ?_⟩
    cases rest with
    | nil => rfl
    | cons c rest =>
      have hc : c.isDigit = false := hrest
      simp [addDigits, hc]
  | cons d ds ih =>
    have hd := hds d List.mem_cons_self
    by_cases hfits : value * 10 + digitOf d ≤ largestNatural
    · obtain ⟨front, back, rfl, value', hread⟩ := ih (value * 10 + digitOf d) (count + 1) hds.tail
      refine ⟨d :: front, back, rfl, value', fun rest hrest => ?_⟩
      have hstep := hread rest hrest
      simp only [List.cons_append, addDigits, hd, hfits, decide_true, Bool.and_self, if_true,
        List.length_cons]
      rw [hstep, Nat.add_assoc, Nat.add_comm 1]
    · refine ⟨[], d :: ds, rfl, value, fun rest _ => ?_⟩
      simp [addDigits, hfits]

theorem addExponentDigits_append (value : Nat) (hds : AllDigits ds) :
    ∃ value' fits back, AllDigits back ∧ (fits = true → back = []) ∧
      ∀ rest, startsWithDigit rest = false →
        addExponentDigits value (ds ++ rest) = (value', fits, back ++ rest) := by
  induction ds generalizing value with
  | nil =>
    refine ⟨value, true, [], hds, fun _ => rfl, fun rest hrest => ?_⟩
    cases rest with
    | nil => rfl
    | cons c rest =>
      have hc : c.isDigit = false := hrest
      simp [addExponentDigits, hc]
  | cons d ds ih =>
    have hd := hds d List.mem_cons_self
    by_cases hfits : value * 10 + digitOf d ≤ largestExponent
    · obtain ⟨value', fits, back, hback, hall, hread⟩ := ih (value * 10 + digitOf d) hds.tail
      refine ⟨value', fits, back, hback, hall, fun rest hrest => ?_⟩
      simp only [List.cons_append, addExponentDigits, hd, hfits, if_true]
      exact hread rest hrest
    · refine ⟨value, false, ds, hds.tail, fun h => absurd h Bool.false_ne_true, fun rest _ => ?_⟩
      simp only [List.cons_append, addExponentDigits, hd, hfits, if_true, if_false]

/-! ## Numbers -/

theorem scaled_settles (isNegative : Bool) (significand : Nat) (exponent : Int) :
    Settles (scaled isNegative significand exponent) [] := by
  refine ⟨(scale? significand exponent).map (.rounded isNegative), fun rest _ => ?_⟩
  rw [List.nil_append, scaled]
  cases scale? significand exponent <;> rfl

theorem readExponentDigits_settles (isNegative : Bool) (significand : Nat) (power : Int)
    (isDown : Bool) {d : Char} (hds : AllDigits (d :: ds)) :
    Settles (readExponentDigits isNegative significand power isDown) (d :: ds) := by
  have hd := hds d List.mem_cons_self
  obtain ⟨value, fits, back, hback, hall, hread⟩ := addExponentDigits_append (digitOf d) hds.tail
  have hstep (rest : List Char) (hrest : EndsNumber rest) :
      readExponentDigits isNegative significand power isDown (d :: ds ++ rest) =
        if fits then scaled isNegative significand (if isDown then power - value else power + value)
          (back ++ rest)
        else if significand != 0 && !isDown then
          .error (.before (back ++ rest) .numberOutOfRange)
        else .ok (.rounded isNegative .zero, rest) := by
    have hstop := startsWithDigit_of_ends hrest
    rw [List.cons_append, readExponentDigits]
    simp only [hd, Bool.not_true, Bool.false_eq_true, if_false, hread rest hstop,
      skipDigits_append hback hstop]
  cases fits with
  | true =>
    obtain rfl := hall rfl
    exact (scaled_settles _ _ _).congr hstep
  | false =>
    simp only [Bool.false_eq_true, if_false] at hstep
    by_cases hlarge : (significand != 0 && !isDown) = true
    · simp only [hlarge, if_true] at hstep
      exact settles_error fun rest hrest => ⟨_, hstep rest hrest⟩
    · simp only [hlarge] at hstep
      refine ⟨some (.rounded isNegative .zero), fun rest hrest => ?_⟩
      rw [hstep rest hrest]
      rfl

theorem readExponent_settles (isNegative : Bool) (significand : Nat) (power : Int)
    (h : ExponentForm t) : Settles (readExponent isNegative significand power) t := by
  cases h with
  | @plain d ds hds =>
    refine (readExponentDigits_settles isNegative significand power false hds).congr ?_
    intro rest _
    have hd := hds d List.mem_cons_self
    unfold readExponent
    split
    · rename_i heq
      obtain ⟨rfl, -⟩ := List.cons.inj heq
      contradiction
    · rename_i heq
      obtain ⟨rfl, -⟩ := List.cons.inj heq
      contradiction
    · rfl
  | up hds =>
    exact (readExponentDigits_settles isNegative significand power false hds).congr fun _ _ => rfl
  | down hds =>
    exact (readExponentDigits_settles isNegative significand power true hds).congr fun _ _ => rfl

theorem readPower_of_ends (isNegative : Bool) (significand : Nat) (power : Int)
    (h : EndsNumber rest) :
    readPower isNegative significand power rest = scaled isNegative significand power rest := by
  unfold readPower
  split
  · exact absurd (h 'e' rfl) (by decide)
  · exact absurd (h 'E' rfl) (by decide)
  · rfl

theorem readPower_settles (isNegative : Bool) (significand : Nat) (power : Int) (h : PowerForm t) :
    Settles (readPower isNegative significand power) t := by
  cases h with
  | none =>
    exact (scaled_settles _ _ _).congr fun rest hrest => readPower_of_ends _ _ _ hrest
  | lower h => exact (readExponent_settles _ _ _ h).congr fun _ _ => rfl
  | upper h => exact (readExponent_settles _ _ _ h).congr fun _ _ => rfl

/-- Behind the digits of a number comes no digit. -/
theorem startsWithDigit_power (h : PowerForm t) (hrest : EndsNumber rest) :
    startsWithDigit (t ++ rest) = false := by
  cases h with
  | none => exact startsWithDigit_of_ends hrest
  | lower => rfl
  | upper => rfl

theorem startsWithDigit_tail (h : TailForm t) (hrest : EndsNumber rest) :
    startsWithDigit (t ++ rest) = false := by
  cases h with
  | power h => exact startsWithDigit_power h hrest
  | point => rfl

theorem readFraction_settles (isNegative : Bool) (significand : Nat) (power : Int) {d : Char}
    (hds : AllDigits (d :: ds)) (h : PowerForm t) :
    Settles (readFraction isNegative significand power) (d :: ds ++ t) := by
  obtain ⟨front, back, hsplit, value, hread⟩ := addDigits_append significand 0 hds
  have hback : AllDigits back := fun e he =>
    hds e (hsplit ▸ List.mem_append_right front he)
  -- all digits fit, or those that do not are passed over
  cases back with
  | nil =>
    rw [List.append_nil] at hsplit
    subst hsplit
    refine (readPower_settles isNegative value (power - (ds.length + 1 : Nat)) h).congr ?_
    intro rest hrest
    have hstop := startsWithDigit_power h hrest
    have hdigits := hread (t ++ rest) hstop
    simp only [List.append_assoc, readFraction, hdigits, List.nil_append, hstop]
    simp
  | cons e back =>
    refine (readPower_settles isNegative value (power - front.length) h).congr ?_
    intro rest hrest
    have hstop := startsWithDigit_power h hrest
    have hdigits := hread (t ++ rest) hstop
    simp only [List.append_assoc, readFraction, hdigits, startsWithDigit_append hback,
      skipDigits_append hback hstop, if_true, Nat.zero_add]

theorem readTail_settles (isNegative : Bool) (significand : Nat) (h : TailForm t) :
    Settles (readTail isNegative significand) t := by
  cases h with
  | power h =>
    cases h with
    | none =>
      refine ⟨some (whole isNegative significand), fun rest hrest => ?_⟩
      rw [List.nil_append, readTail_of_ends hrest]
      rfl
    | lower h => exact (readExponent_settles isNegative significand 0 h).congr fun _ _ => rfl
    | upper h => exact (readExponent_settles isNegative significand 0 h).congr fun _ _ => rfl
  | point hds h =>
    exact (readFraction_settles isNegative significand 0 hds h).congr fun _ _ => rfl

/-- What is read behind digits of which not all fit. -/
def readScaled (isNegative : Bool) (significand : Nat) (power : Int) (cs : List Char) :
    Except Fault (Number × List Char) :=
  match cs with
  | '.' :: rest => readFraction isNegative significand power rest
  | _ => readPower isNegative significand power cs

theorem readScaled_settles (isNegative : Bool) (significand : Nat) (power : Int)
    (h : TailForm t) : Settles (readScaled isNegative significand power) t := by
  cases h with
  | power h =>
    refine (readPower_settles isNegative significand power h).congr fun rest hrest => ?_
    cases h with
    | none =>
      rw [List.nil_append]
      unfold readScaled
      split
      · exact absurd (hrest '.' rfl) (by decide)
      · rfl
    | lower => rfl
    | upper => rfl
  | point hds h =>
    exact (readFraction_settles isNegative significand power hds h).congr fun _ _ => rfl

theorem readMagnitude_digits {isNegative : Bool} {d : Char} {value count : Nat} {behind : List Char}
    (hd : d.isDigit = true) (hne : d ≠ '0')
    (hdigits : addDigits (digitOf d) 1 cs = (value, count, behind)) :
    readMagnitude isNegative (d :: cs) =
      if startsWithDigit behind then
        readScaled isNegative value (behind.length - (skipDigits behind).length : Nat)
          (skipDigits behind)
      else readTail isNegative value behind := by
  have hzero : (d == '0') = false := beq_eq_false_iff_ne.mpr hne
  simp only [readMagnitude, hd, hzero, hdigits, Bool.not_true, Bool.false_eq_true, if_false]
  rfl

theorem readMagnitude_settles (isNegative : Bool) (h : MagnitudeForm t) :
    Settles (readMagnitude isNegative) t := by
  cases h with
  | @parts w t hw ht =>
    cases hw with
    | zero =>
      refine (readTail_settles isNegative 0 ht).congr fun rest hrest => ?_
      simp [readMagnitude, startsWithDigit_tail ht hrest]
    | @digits d ds hd hne hds =>
      obtain ⟨front, back, hsplit, value, hread⟩ := addDigits_append (digitOf d) 1 hds
      have hback : AllDigits back := fun e he => hds e (hsplit ▸ List.mem_append_right front he)
      cases back with
      | nil =>
        refine (readTail_settles isNegative value ht).congr fun rest hrest => ?_
        have hstop := startsWithDigit_tail ht hrest
        have hdigits := hread (t ++ rest) hstop
        rw [List.append_assoc, List.cons_append, readMagnitude_digits hd hne hdigits,
          List.nil_append, hstop]
        rfl
      | cons e back =>
        refine (readScaled_settles isNegative value (e :: back).length ht).congr ?_
        intro rest hrest
        have hstop := startsWithDigit_tail ht hrest
        have hdigits := hread (t ++ rest) hstop
        have hlength : (e :: back ++ (t ++ rest)).length = (e :: back).length + (t ++ rest).length :=
          List.length_append
        have hpower : (e :: back ++ (t ++ rest)).length - (t ++ rest).length =
            (e :: back).length := by omega
        rw [List.append_assoc, List.cons_append, readMagnitude_digits hd hne hdigits,
          startsWithDigit_append hback, skipDigits_append hback hstop, hpower]
        rfl

/-! ## Strings -/

/-- No string is read from these characters, whatever follows the quote behind them. -/
def Broken (t : List Char) : Prop :=
  ∀ fuel acc rest, ∃ e, readChars fuel acc (t ++ '"' :: rest) = .error e

theorem CharText.broken {c : Char} (h : CharText c t) (hu : Broken u) : Broken (t ++ u) := by
  intro fuel acc rest
  cases fuel with
  | zero => exact ⟨_, rfl⟩
  | succ fuel =>
    rw [List.append_assoc, h.read]
    exact hu fuel (c :: acc) rest

theorem broken_numbered (h : ∀ rest, ∃ e, readNumbered (t ++ '"' :: rest) = .error e) :
    Broken ('\\' :: 'u' :: t) := by
  intro fuel acc rest
  cases fuel with
  | zero => exact ⟨_, rfl⟩
  | succ fuel =>
    obtain ⟨e, he⟩ := h rest
    exact ⟨e, by simp [readChars, readEscape, he]⟩

theorem readNumbered_trail {n : Nat} (h : HexText n t) (hn : isTrail n = true) (cs : List Char) :
    ∃ e, readNumbered (t ++ cs) = .error e := by
  simp only [readNumbered, h.read, ok_bind, hn]
  exact ⟨_, rfl⟩

theorem isTrail_of_isLead {n : Nat} (h : isLead n = true) : isTrail n = false := by
  simp only [isLead, isTrail, Bool.and_eq_true, decide_eq_true_eq, Bool.and_eq_false_iff,
    decide_eq_false_iff_not] at h ⊢
  omega

/-- The first half of a pair is followed by the second half, or no character is read. -/
theorem readNumbered_lead {n : Nat} (h : HexText n t) (hn : isLead n = true) (hu : CharsForm u) :
    (∃ m w more, u = '\\' :: 'u' :: w ++ more ∧ HexText m w ∧ isTrail m = true ∧ CharsForm more) ∨
      ∀ rest, ∃ e, readNumbered (t ++ u ++ '"' :: rest) = .error e := by
  have hstep (cs : List Char) : readNumbered (t ++ cs) = (do
      let rest ← expectInPair '\\' cs
      let rest ← expectInPair 'u' rest
      let half ← readHex rest
      if isTrail half.1 then
        return (Char.ofNat (0x10000 + (n - 0xd800) * 0x400 + (half.1 - 0xdc00)), half.2)
      else throw (.before half.2 .lonePart)) := by
    simp only [readNumbered, h.read, ok_bind, hn, isTrail_of_isLead hn, Bool.false_eq_true, if_false,
      if_true]
  cases hu with
  | nil =>
    refine .inr fun rest => ?_
    rw [List.append_assoc, hstep]
    exact ⟨_, rfl⟩
  | cons hc hmore =>
    cases hc with
    | @itself c _ hslash _ =>
      have hne : (c == '\\') = false := beq_eq_false_iff_ne.mpr hslash
      refine .inr fun rest => ?_
      rw [List.append_assoc, hstep]
      simp [expectInPair, hne]
    | @short _ d hd =>
      have hshort : ∀ e ∈ shortEscapes, e.2 ≠ 'u' := by decide
      refine .inr fun rest => ?_
      rw [List.append_assoc, hstep]
      simp [expectInPair, hshort _ hd]
    | @numbered m w hw =>
      cases hm : isTrail m with
      | true => exact .inl ⟨m, w, _, rfl, hw, hm, hmore⟩
      | false =>
        refine .inr fun rest => ?_
        rw [List.append_assoc, hstep]
        simp only [List.cons_append, List.append_assoc, expectInPair, beq_self_eq_true, if_true,
          ok_bind, hw.read, hm, Bool.false_eq_true, if_false]
        exact ⟨_, rfl⟩

/-- Characters between quotes are the characters of a string, or no string is read. -/
theorem CharsForm.settles (h : CharsForm t) : (∃ cs, CharsText cs t) ∨ Broken t := by
  induction hlength : t.length using Nat.strongRecOn generalizing t with
  | ind length ih =>
    cases h with
    | nil => exact .inl ⟨[], .nil⟩
    | @cons t u hc hu =>
      -- the text behind one character, which may be written in two parts
      have hnext {c : Char} {t u : List Char} (hc : CharText c t) (hu : CharsForm u)
          (hlt : u.length < length) : (∃ cs, CharsText cs (t ++ u)) ∨ Broken (t ++ u) := by
        rcases ih _ hlt hu rfl with ⟨cs, hcs⟩ | hbroken
        · exact .inl ⟨c :: cs, .cons hc hcs⟩
        · exact .inr (hc.broken hbroken)
      rw [List.length_append] at hlength
      cases hc with
      | itself hquote hslash hc =>
        exact hnext (.itself hquote hslash hc) hu (by rw [← hlength]; simp)
      | short hd => exact hnext (.short hd) hu (by rw [← hlength]; simp)
      | @numbered n t ht =>
        cases htrail : isTrail n with
        | true =>
          refine .inr (broken_numbered fun rest => ?_)
          rw [List.append_eq, List.append_assoc]
          exact readNumbered_trail ht htrail _
        | false =>
          cases hlead : isLead n with
          | true =>
            rcases readNumbered_lead ht hlead hu with ⟨m, w, more, rfl, hw, hm, hmore⟩ | hbroken
            · have hpair := charText_pair hlead hm ht hw
              have hlast := hnext hpair hmore (by rw [← hlength]; simp; omega)
              simpa using hlast
            · exact .inr (broken_numbered hbroken)
          | false => exact hnext (charText_numbered ht hlead htrail) hu (by rw [← hlength]; simp)

end Census.Json
