import Census.Text.Utf8
import Mathlib.Data.List.Basic
import Mathlib.Data.String.Basic
import Mathlib.Tactic.SplitIfs
/-!
Sequences of UTF-8. A step of the decoder takes the bytes of one character, or else it takes as many bytes
as could still begin one, and at least one.
-/

namespace Census.Text

open String (utf8EncodeChar)

variable {b b₁ b₂ b₃ lo hi : UInt8} {m n : Nat} {c : Char} {bs front rest : List UInt8}

/-! ## Lead bytes -/

/-- A first byte and the byte after it, which can begin a character with so many bytes after the first. -/
inductive Leads : Nat → Nat → Nat → Prop where
  | two {b b₁ : Nat} : 0xC2 ≤ b → b ≤ 0xDF → 0x80 ≤ b₁ → b₁ ≤ 0xBF → Leads 1 b b₁
  | three {b b₁ : Nat} : 0xE0 ≤ b → b ≤ 0xEF → 0x80 ≤ b₁ → b₁ ≤ 0xBF → (b = 0xE0 → 0xA0 ≤ b₁) →
      (b = 0xED → b₁ ≤ 0x9F) → Leads 2 b b₁
  | four {b b₁ : Nat} : 0xF0 ≤ b → b ≤ 0xF4 → 0x80 ≤ b₁ → b₁ ≤ 0xBF → (b = 0xF0 → 0x90 ≤ b₁) →
      (b = 0xF4 → b₁ ≤ 0x8F) → Leads 3 b b₁

theorem leads_of_leadByte (h : leadByte b = some (n, lo, hi)) (h₁ : isBetween lo hi b₁ = true) :
    Leads n b.toNat b₁.toNat := by
  simp only [leadByte, Bool.and_eq_true, decide_eq_true_eq, beq_iff_eq, UInt8.le_iff_toNat_le,
    ← UInt8.toNat_inj, UInt8.reduceToNat] at h
  simp only [isBetween, Bool.and_eq_true, decide_eq_true_eq, UInt8.le_iff_toNat_le] at h₁
  split_ifs at h <;> simp only [Option.some.injEq, Prod.mk.injEq] at h <;>
    obtain ⟨rfl, rfl, rfl⟩ := h <;> simp only [UInt8.reduceToNat] at h₁ <;> constructor <;> omega

theorem leadByte_of_leads (h : Leads n b.toNat b₁.toNat) :
    ∃ lo hi, leadByte b = some (n, lo, hi) ∧ isBetween lo hi b₁ = true := by
  simp only [leadByte, Bool.and_eq_true, decide_eq_true_eq, beq_iff_eq, UInt8.le_iff_toNat_le,
    ← UInt8.toNat_inj, UInt8.reduceToNat, isBetween]
  cases h with
  | two =>
    rw [if_pos (by omega)]
    refine ⟨_, _, rfl, ?_⟩
    simp only [UInt8.reduceToNat]
    omega
  | three =>
    split_ifs <;> first | omega | (refine ⟨_, _, rfl, ?_⟩; simp only [UInt8.reduceToNat]; omega)
  | four =>
    split_ifs <;> first | omega | (refine ⟨_, _, rfl, ?_⟩; simp only [UInt8.reduceToNat]; omega)

theorem isTail_iff : isTail b = true ↔ 0x80 ≤ b.toNat ∧ b.toNat ≤ 0xBF := by
  simp [isTail, isBetween, UInt8.le_iff_toNat_le]

theorem Leads.isTail (h : Leads n b.toNat b₁.toNat) : isTail b₁ = true := by
  rw [isTail_iff]
  cases h <;> omega

theorem lt_0x80_iff : b < 0x80 ↔ b.toNat < 0x80 := by
  simp [UInt8.lt_iff_toNat_lt]

theorem Leads.not_ascii (h : Leads n b.toNat b₁.toNat) : ¬ b < 0x80 := by
  rw [lt_0x80_iff]
  cases h <;> omega

theorem not_ascii_of_isTail (h : isTail b = true) : ¬ b < 0x80 := by
  rw [lt_0x80_iff]
  rw [isTail_iff] at h
  omega

/-! ## Characters -/

/-- The bytes of a character, with what their bits make together. -/
inductive Sequence : List UInt8 → Nat → Prop where
  | one {b : UInt8} : b < 0x80 → Sequence [b] b.toNat
  | two {b b₁ : UInt8} : Leads 1 b.toNat b₁.toNat →
      Sequence [b, b₁] ((b.toNat % 32) * 64 + lowBits b₁)
  | three {b b₁ b₂ : UInt8} : Leads 2 b.toNat b₁.toNat → isTail b₂ = true →
      Sequence [b, b₁, b₂] ((b.toNat % 16) * 4096 + lowBits b₁ * 64 + lowBits b₂)
  | four {b b₁ b₂ b₃ : UInt8} : Leads 3 b.toNat b₁.toNat → isTail b₂ = true → isTail b₃ = true →
      Sequence [b, b₁, b₂, b₃]
        ((b.toNat % 8) * 262144 + lowBits b₁ * 4096 + lowBits b₂ * 64 + lowBits b₃)

theorem encode_one (h : c.toNat ≤ 0x7F) : utf8EncodeChar c = [.ofNat c.toNat] := if_pos h

theorem encode_two (h : 0x7F < c.toNat) (h' : c.toNat ≤ 0x7FF) : utf8EncodeChar c =
    [.ofNat (c.toNat / 64 % 32 + 192), .ofNat (c.toNat % 64 + 128)] :=
  (if_neg (Nat.not_le_of_lt h)).trans (if_pos h')

theorem encode_three (h : 0x7FF < c.toNat) (h' : c.toNat ≤ 0xFFFF) : utf8EncodeChar c =
    [.ofNat (c.toNat / 4096 % 16 + 224), .ofNat (c.toNat / 64 % 64 + 128),
      .ofNat (c.toNat % 64 + 128)] :=
  (if_neg (by change ¬ c.toNat ≤ _; omega)).trans
    ((if_neg (Nat.not_le_of_lt h)).trans (if_pos h'))

theorem encode_four (h : 0xFFFF < c.toNat) : utf8EncodeChar c =
    [.ofNat (c.toNat / 262144 % 8 + 240), .ofNat (c.toNat / 4096 % 64 + 128),
      .ofNat (c.toNat / 64 % 64 + 128), .ofNat (c.toNat % 64 + 128)] :=
  (if_neg (by change ¬ c.toNat ≤ _; omega)).trans
    ((if_neg (by change ¬ c.toNat ≤ _; omega)).trans (if_neg (Nat.not_le_of_lt h)))

/-- The bits of a sequence make a character. -/
theorem Sequence.isValidChar (h : Sequence bs n) : n.isValidChar := by
  cases h with
  | @one b hb =>
    rw [lt_0x80_iff] at hb
    exact .inl (by omega)
  | @two b b₁ hlead =>
    have hlow : b.toNat % 32 * 64 + lowBits b₁ < 0xD800 := by
      unfold lowBits
      omega
    exact .inl hlow
  | @three b b₁ b₂ hlead h₂ =>
    -- the range of the second byte keeps the bits out of the surrogates
    have hbits : b.toNat % 16 * 4096 + lowBits b₁ * 64 + lowBits b₂ < 0xD800 ∨
        0xDFFF < b.toNat % 16 * 4096 + lowBits b₁ * 64 + lowBits b₂ := by
      unfold lowBits
      cases hlead
      omega
    refine hbits.imp id fun hhigh => ⟨hhigh, ?_⟩
    unfold lowBits
    omega
  | @four b b₁ b₂ b₃ hlead h₂ h₃ =>
    refine .inr ?_
    unfold lowBits
    cases hlead
    omega

theorem toNat_ofNat_of_valid (h : n.isValidChar) : (Char.ofNat n).toNat = n := by
  rw [Char.ofNat, dif_pos h]
  rfl

/-- Its bytes are those of this character. -/
theorem Sequence.encode (h : Sequence bs n) : utf8EncodeChar (Char.ofNat n) = bs := by
  have hn := toNat_ofNat_of_valid h.isValidChar
  cases h with
  | one hb =>
    rw [lt_0x80_iff] at hb
    rw [encode_one (by omega), hn, UInt8.ofNat_toNat]
  | two hlead =>
    unfold lowBits at hn ⊢
    cases hlead
    rw [encode_two (by omega) (by omega), hn]
    simp only [List.cons.injEq, ← UInt8.toNat_inj, UInt8.toNat_ofNat', and_true]
    omega
  | three hlead h₂ =>
    rw [isTail_iff] at h₂
    unfold lowBits at hn ⊢
    cases hlead
    rw [encode_three (by omega) (by omega), hn]
    simp only [List.cons.injEq, ← UInt8.toNat_inj, UInt8.toNat_ofNat', and_true]
    omega
  | four hlead h₂ h₃ =>
    rw [isTail_iff] at h₂ h₃
    unfold lowBits at hn ⊢
    cases hlead
    rw [encode_four (by omega), hn]
    simp only [List.cons.injEq, ← UInt8.toNat_inj, UInt8.toNat_ofNat', and_true]
    omega

theorem Sequence.of_eq (h : Sequence bs m) (hm : m = n) : Sequence bs n := hm ▸ h

/-- The bytes of every character are a sequence. -/
theorem sequence_encode (c : Char) : Sequence (utf8EncodeChar c) c.toNat := by
  have hvalid : c.toNat < 0xD800 ∨ 0xDFFF < c.toNat ∧ c.toNat < 0x110000 := c.valid
  by_cases h₁ : c.toNat ≤ 0x7F
  · rw [encode_one h₁]
    refine (Sequence.one ?_).of_eq ?_
    · rw [lt_0x80_iff, UInt8.toNat_ofNat']
      omega
    · rw [UInt8.toNat_ofNat']
      omega
  by_cases h₂ : c.toNat ≤ 0x7FF
  · rw [encode_two (by omega) h₂]
    refine (Sequence.two ?_).of_eq ?_
    · simp only [UInt8.toNat_ofNat']
      constructor <;> omega
    · simp only [lowBits, UInt8.toNat_ofNat']
      omega
  by_cases h₃ : c.toNat ≤ 0xFFFF
  · rw [encode_three (by omega) h₃]
    refine (Sequence.three ?_ ?_).of_eq ?_
    · simp only [UInt8.toNat_ofNat']
      constructor <;> omega
    · rw [isTail_iff, UInt8.toNat_ofNat']
      omega
    · simp only [lowBits, UInt8.toNat_ofNat']
      omega
  · rw [encode_four (by omega)]
    refine (Sequence.four ?_ ?_ ?_).of_eq ?_
    · simp only [UInt8.toNat_ofNat']
      constructor <;> omega
    · rw [isTail_iff, UInt8.toNat_ofNat']
      omega
    · rw [isTail_iff, UInt8.toNat_ofNat']
      omega
    · simp only [lowBits, UInt8.toNat_ofNat']
      omega

/-- Only a sequence by itself holds a byte of ASCII. -/
theorem Sequence.ascii (h : Sequence bs n) :
    (∃ b, b < 0x80 ∧ bs = [b] ∧ n = b.toNat) ∨ 0x80 ≤ n ∧ ∀ b ∈ bs, ¬ b < 0x80 := by
  cases h with
  | @one b hb => exact .inl ⟨b, hb, rfl, rfl⟩
  | two hlead =>
    refine .inr ⟨?_, by
      simpa using And.intro hlead.not_ascii (not_ascii_of_isTail hlead.isTail)⟩
    unfold lowBits
    cases hlead
    omega
  | three hlead h₂ =>
    refine .inr ⟨?_, by
      simpa using And.intro hlead.not_ascii
        (And.intro (not_ascii_of_isTail hlead.isTail) (not_ascii_of_isTail h₂))⟩
    unfold lowBits
    cases hlead
    omega
  | four hlead h₂ h₃ =>
    refine .inr ⟨?_, by
      simpa using And.intro hlead.not_ascii (And.intro (not_ascii_of_isTail hlead.isTail)
        (And.intro (not_ascii_of_isTail h₂) (not_ascii_of_isTail h₃)))⟩
    unfold lowBits
    cases hlead
    omega

/-- The first byte of a sequence tells that it begins here, and all others that it goes on. -/
theorem Sequence.isTail (h : Sequence (b :: bs) n) :
    Text.isTail b = false ∧ ∀ x ∈ bs, Text.isTail x = true := by
  have hfirst : Text.isTail b = false ↔ ¬ (0x80 ≤ b.toNat ∧ b.toNat ≤ 0xBF) := by
    rw [← isTail_iff, Bool.not_eq_true]
  rw [hfirst]
  cases h with
  | one hb =>
    rw [lt_0x80_iff] at hb
    exact ⟨by omega, by simp⟩
  | two hlead => exact ⟨by cases hlead; omega, by simp [hlead.isTail]⟩
  | three hlead h₂ => exact ⟨by cases hlead; omega, by simp [hlead.isTail, h₂]⟩
  | four hlead h₂ h₃ => exact ⟨by cases hlead; omega, by simp [hlead.isTail, h₂, h₃]⟩

/-! ## Steps of the decoder -/

/-- The bytes that a step takes for a malformed piece, in front of what follows: no first byte of a
character, or the bytes of one up to where the next byte cannot go on with it. -/
inductive Cut : List UInt8 → List UInt8 → Prop where
  | first {b : UInt8} {rest : List UInt8} : ¬ b < 0x80 → leadByte b = none → Cut [b] rest
  | second {b lo hi : UInt8} {n : Nat} {rest : List UInt8} : ¬ b < 0x80 →
      leadByte b = some (n, lo, hi) → (∀ x ∈ rest.head?, isBetween lo hi x = false) → Cut [b] rest
  | third {b b₁ : UInt8} {n : Nat} {rest : List UInt8} : Leads n b.toNat b₁.toNat → n ≠ 1 →
      (∀ x ∈ rest.head?, isTail x = false) → Cut [b, b₁] rest
  | fourth {b b₁ b₂ : UInt8} {rest : List UInt8} : Leads 3 b.toNat b₁.toNat → isTail b₂ = true →
      (∀ x ∈ rest.head?, isTail x = false) → Cut [b, b₁, b₂] rest

/-- A step takes the sequence in front. -/
theorem Sequence.step (h : Sequence bs n) (rest : List UInt8) :
    decodeStep (bs ++ rest) = some (some (Char.ofNat n), rest) := by
  cases h with
  | one hb => exact if_pos hb
  | two hlead =>
    obtain ⟨lo, hi, hrange, hsecond⟩ := leadByte_of_leads hlead
    simp [decodeStep, hlead.not_ascii, hrange, hsecond]
  | three hlead h₂ =>
    obtain ⟨lo, hi, hrange, hsecond⟩ := leadByte_of_leads hlead
    simp [decodeStep, hlead.not_ascii, hrange, hsecond, h₂]
  | four hlead h₂ h₃ =>
    obtain ⟨lo, hi, hrange, hsecond⟩ := leadByte_of_leads hlead
    simp [decodeStep, hlead.not_ascii, hrange, hsecond, h₂, h₃]

/-- A step takes a piece that is cut off. -/
theorem Cut.step (h : Cut front rest) : decodeStep (front ++ rest) = some (none, rest) := by
  cases h with
  | first hb hrange => simp [decodeStep, hb, hrange]
  | second hb hrange hnext =>
    cases rest with
    | nil => simp [decodeStep, hb, hrange]
    | cons x rest =>
      have hx := hnext x rfl
      simp [decodeStep, hb, hrange, hx]
  | third hlead hmore hnext =>
    obtain ⟨lo, hi, hrange, hsecond⟩ := leadByte_of_leads hlead
    cases rest with
    | nil => simp [decodeStep, hlead.not_ascii, hrange, hsecond, hmore]
    | cons x rest =>
      have hx := hnext x rfl
      simp [decodeStep, hlead.not_ascii, hrange, hsecond, hmore, hx]
  | fourth hlead h₂ hnext =>
    obtain ⟨lo, hi, hrange, hsecond⟩ := leadByte_of_leads hlead
    cases rest with
    | nil => simp [decodeStep, hlead.not_ascii, hrange, hsecond, h₂]
    | cons x rest =>
      have hx := hnext x rfl
      simp [decodeStep, hlead.not_ascii, hrange, hsecond, h₂, hx]

/-- Where there are bytes, a sequence is in front, or a piece is cut off. -/
theorem sequence_or_cut (h : bs ≠ []) :
    ∃ front rest, bs = front ++ rest ∧ ((∃ n, Sequence front n) ∨ Cut front rest) := by
  obtain ⟨b, bs, rfl⟩ := List.exists_cons_of_ne_nil h
  by_cases hb : b < 0x80
  · exact ⟨[b], bs, rfl, .inl ⟨_, .one hb⟩⟩
  cases hrange : leadByte b with
  | none => exact ⟨[b], bs, rfl, .inr (.first hb hrange)⟩
  | some range =>
    obtain ⟨n, lo, hi⟩ := range
    -- one byte after another, each of which may be missing or may not go on with the sequence
    cases bs with
    | nil => exact ⟨[b], [], rfl, .inr (.second hb hrange (by simp))⟩
    | cons b₁ bs =>
      cases h₁ : isBetween lo hi b₁ with
      | false => exact ⟨[b], b₁ :: bs, rfl, .inr (.second hb hrange (by simpa using h₁))⟩
      | true =>
        have hlead := leads_of_leadByte hrange h₁
        by_cases hone : n = 1
        · subst hone
          exact ⟨[b, b₁], bs, rfl, .inl ⟨_, .two hlead⟩⟩
        cases bs with
        | nil => exact ⟨[b, b₁], [], rfl, .inr (.third hlead hone (by simp))⟩
        | cons b₂ bs =>
          cases h₂ : isTail b₂ with
          | false => exact ⟨[b, b₁], b₂ :: bs, rfl, .inr (.third hlead hone (by simpa using h₂))⟩
          | true =>
            by_cases htwo : n = 2
            · subst htwo
              exact ⟨[b, b₁, b₂], bs, rfl, .inl ⟨_, .three hlead h₂⟩⟩
            obtain rfl : n = 3 := by cases hlead <;> omega
            cases bs with
            | nil => exact ⟨[b, b₁, b₂], [], rfl, .inr (.fourth hlead h₂ (by simp))⟩
            | cons b₃ bs =>
              cases h₃ : isTail b₃ with
              | false =>
                exact ⟨[b, b₁, b₂], b₃ :: bs, rfl, .inr (.fourth hlead h₂ (by simpa using h₃))⟩
              | true => exact ⟨[b, b₁, b₂, b₃], bs, rfl, .inl ⟨_, .four hlead h₂ h₃⟩⟩

/-! ## Pieces -/

/-- What is cut off goes by the next byte only. -/
theorem Cut.of_head (h : Cut front rest) (hhead : bs.head? = rest.head?) : Cut front bs := by
  cases h with
  | first hb hrange => exact .first hb hrange
  | second hb hrange hnext => exact .second hb hrange (hhead ▸ hnext)
  | third hlead hmore hnext => exact .third hlead hmore (hhead ▸ hnext)
  | fourth hlead h₂ hnext => exact .fourth hlead h₂ (hhead ▸ hnext)

/-- No character is in front where a piece is cut off. -/
theorem Cut.no_char (h : Cut front rest) (c : Char) : ¬ utf8EncodeChar c <+: front ++ rest := by
  rintro ⟨more, hmore⟩
  have hstep := (sequence_encode c).step more
  rw [hmore, h.step] at hstep
  cases hstep

/-- The next byte cannot go on with a piece that is cut off. -/
theorem Cut.stops (h : Cut front rest) (hx : b ∈ rest.head?) (c : Char) :
    ¬ front ++ [b] <+: utf8EncodeChar c := by
  rintro ⟨more, hmore⟩
  have hnext : Cut front (b :: more) := h.of_head hx.symm
  have hbytes : front ++ b :: more = utf8EncodeChar c := by
    rw [← hmore, List.append_assoc, List.singleton_append]
  exact hnext.no_char c (hbytes ▸ List.prefix_rfl)

/-- The bytes of a piece that is cut off are the first ones of a character, or are one. -/
theorem Cut.begins (h : Cut front rest) :
    front ≠ [] ∧ (front.length = 1 ∨ ∃ c, front <+: utf8EncodeChar c) := by
  have htail : isTail 0x80 = true := rfl
  cases h with
  | first => exact ⟨by simp, .inl rfl⟩
  | second => exact ⟨by simp, .inl rfl⟩
  | @third b b₁ n _ hlead hmore =>
    have hlength : n = 2 ∨ n = 3 := by
      cases hlead with
      | two => exact absurd rfl hmore
      | three => exact .inl rfl
      | four => exact .inr rfl
    refine ⟨by simp, .inr ?_⟩
    rcases hlength with rfl | rfl
    · exact ⟨_, [0x80], (Sequence.three hlead htail).encode.symm⟩
    · exact ⟨_, [0x80, 0x80], (Sequence.four hlead htail htail).encode.symm⟩
  | fourth hlead h₂ => exact ⟨by simp, .inr ⟨_, [0x80], (Sequence.four hlead h₂ htail).encode.symm⟩⟩

end Census.Text
