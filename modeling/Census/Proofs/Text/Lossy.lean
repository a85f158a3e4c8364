import Census.Proofs.Text.Sequence
/-!
What is read from bytes that need not be UTF-8. The bytes are cut into characters and malformed pieces, in
one way only, and every ASCII byte is a character by itself.
-/

namespace Census.Text

open String (utf8EncodeChar)

variable {bad bs front rest piece : List UInt8} {b : UInt8} {c : Char} {cs more : List Char}

/-- The character with the number of a byte, which is what an ASCII byte is read as. -/
def byteChar (b : UInt8) : Char := Char.ofNat b.toNat

theorem toNat_byteChar (b : UInt8) : (byteChar b).toNat = b.toNat := by
  have hvalid : b.toNat.isValidChar := .inl (Nat.lt_trans b.toNat_lt (by decide))
  rw [byteChar, toNat_ofNat_of_valid hvalid]

/-! ## Malformed pieces -/

/-- Bytes that cannot be read, in front of what follows: a single byte or the first bytes of some character,
and the next byte does not go on with any. -/
structure Malformed (bad rest : List UInt8) : Prop where
  ne_nil : bad ≠ []
  begins : bad.length = 1 ∨ ∃ c, bad <+: utf8EncodeChar c
  no_char : ∀ c, ¬ utf8EncodeChar c <+: bad ++ rest
  stops : ∀ x ∈ rest.head?, ∀ c, ¬ bad ++ [x] <+: utf8EncodeChar c

theorem Cut.malformed (h : Cut bad rest) : Malformed bad rest :=
  { ne_nil := h.begins.1
    begins := h.begins.2
    no_char := h.no_char
    stops := fun _ hx => h.stops hx }

/-- A byte behind the first one of a character. -/
theorem isTail_of_encode (hne : front ≠ []) (h : front ++ [b] <+: utf8EncodeChar c) :
    isTail b = true := by
  obtain ⟨more, hmore⟩ := h
  obtain ⟨a, front, rfl⟩ := List.exists_cons_of_ne_nil hne
  have hseq := sequence_encode c
  rw [← hmore] at hseq
  exact hseq.isTail.2 b (by simp)

/-- The next byte can be any other one that does not go on with a character. -/
theorem Malformed.before (h : Malformed bad rest)
    (hnext : ∀ x ∈ bs.head?, x ∈ rest.head? ∨ isTail x = false) : Malformed bad bs := by
  have hstops : ∀ x ∈ bs.head?, ∀ c, ¬ bad ++ [x] <+: utf8EncodeChar c := by
    intro x hx c hfront
    rcases hnext x hx with hx | hx
    · exact h.stops x hx c hfront
    · rw [isTail_of_encode h.ne_nil hfront] at hx
      cases hx
  have hno : ∀ c, ¬ utf8EncodeChar c <+: bad := fun c hfront =>
    h.no_char c (hfront.trans (List.prefix_append bad rest))
  refine { h with no_char := fun c hfront => ?_, stops := hstops }
  obtain ⟨more, hmore⟩ : bad <+: utf8EncodeChar c :=
    (List.prefix_or_prefix_of_prefix hfront (List.prefix_append bad bs)).resolve_left (hno c)
  cases more with
  | nil => exact hno c (hmore ▸ (List.append_nil bad).symm ▸ List.prefix_rfl)
  | cons x more =>
    rw [← hmore, List.prefix_append_right_inj] at hfront
    obtain ⟨bs, rfl⟩ := hfront
    exact hstops x rfl c ⟨more, by rw [← hmore, List.append_assoc, List.singleton_append]⟩

/-- A malformed piece does not begin with another one. -/
theorem Malformed.not_longer (h : Malformed front (bs ++ rest)) (h' : Malformed (front ++ bs) rest) :
    bs = [] := by
  cases bs with
  | nil => rfl
  | cons x bs =>
    have hlength : (front ++ x :: bs).length ≠ 1 := by
      have := List.length_pos_of_ne_nil h.ne_nil
      rw [List.length_append, List.length_cons]
      omega
    obtain ⟨c, hc⟩ := h'.begins.resolve_left hlength
    have hfront : front ++ [x] <+: front ++ x :: bs := ⟨bs, by simp⟩
    exact absurd (hfront.trans hc) (h.stops x rfl c)

theorem Malformed.unique {bad' rest' : List UInt8} (h : Malformed bad rest)
    (h' : Malformed bad' rest') (heq : bad ++ rest = bad' ++ rest') : bad = bad' ∧ rest = rest' := by
  rcases List.append_eq_append_iff.mp heq with ⟨more, rfl, rfl⟩ | ⟨more, rfl, rfl⟩
  · obtain rfl := h.not_longer h'
    simp
  · obtain rfl := h'.not_longer h
    simp

/-- A malformed piece is what a step of the decoder cuts off. -/
theorem Malformed.step (h : Malformed bad rest) : decodeStep (bad ++ rest) = some (none, rest) := by
  obtain ⟨front, more, heq, ⟨n, hseq⟩ | hcut⟩ :=
    sequence_or_cut (List.append_ne_nil_of_left_ne_nil h.ne_nil rest)
  · exact absurd ⟨more, by rw [hseq.encode, heq]⟩ (h.no_char (Char.ofNat n))
  · obtain ⟨rfl, rfl⟩ := h.unique hcut.malformed heq
    exact hcut.step

/-! ## What is read -/

/-- Bytes in front of others, with the character that is read from them. -/
inductive Piece : List UInt8 → List UInt8 → Char → Prop where
  | char (c : Char) (rest : List UInt8) : Piece (utf8EncodeChar c) rest c
  | malformed {bad rest : List UInt8} : Malformed bad rest → Piece bad rest '\ufffd'

/-- Bytes with the text that is read from them, piece by piece. -/
inductive Reads : List UInt8 → List Char → Prop where
  | nil : Reads [] []
  | cons {piece rest : List UInt8} {c : Char} {cs : List Char} :
      Piece piece rest c → Reads rest cs → Reads (piece ++ rest) (c :: cs)

theorem Piece.ne_nil (h : Piece piece rest c) : piece ≠ [] := by
  cases h with
  | char => exact String.utf8EncodeChar_ne_nil
  | malformed hbad => exact hbad.ne_nil

theorem Piece.before (h : Piece piece rest c)
    (hnext : ∀ x ∈ bs.head?, x ∈ rest.head? ∨ isTail x = false) : Piece piece bs c := by
  cases h with
  | char => exact .char c bs
  | malformed hbad => exact .malformed (hbad.before hnext)

/-- A piece stays one where fewer bytes follow. -/
theorem Piece.shorten (h : Piece piece (front ++ rest) c) : Piece piece front c := by
  refine h.before fun x hx => .inl ?_
  rw [List.head?_append, hx]
  rfl

theorem Piece.step (h : Piece piece rest c) :
    ∃ read, decodeStep (piece ++ rest) = some (read, rest) ∧ read.getD '\ufffd' = c := by
  cases h with
  | char =>
    refine ⟨some c, ?_, rfl⟩
    rw [(sequence_encode c).step rest, Char.ofNat_toNat]
  | malformed hbad => exact ⟨none, hbad.step, rfl⟩

theorem Reads.go (h : Reads bs cs) {fuel : Nat} (hfuel : bs.length ≤ fuel)
    (acc : List (Option Char)) : (decodePieces.go fuel bs acc).map (fun read => read.getD '\ufffd') =
      acc.reverse.map (fun read => read.getD '\ufffd') ++ cs := by
  induction h generalizing fuel acc with
  | nil => cases fuel <;> simp [decodePieces.go, decodeStep]
  | @cons piece rest c cs hpiece hrest ih =>
    have hpos := List.length_pos_of_ne_nil hpiece.ne_nil
    rw [List.length_append] at hfuel
    obtain ⟨fuel, rfl⟩ : ∃ k, fuel = k + 1 := ⟨fuel - 1, by omega⟩
    obtain ⟨read, hstep, rfl⟩ := hpiece.step
    rw [decodePieces.go, hstep]
    dsimp only
    rw [ih (by omega)]
    simp

theorem Reads.decodeLossy_eq (h : Reads bs cs) : decodeLossy bs = cs :=
  (h.go (Nat.le_refl _) []).trans (List.nil_append cs)

theorem exists_reads (bs : List UInt8) : ∃ cs, Reads bs cs := by
  induction hn : bs.length using Nat.strong_induction_on generalizing bs with
  | _ n ih =>
    by_cases hne : bs = []
    · exact ⟨[], hne ▸ .nil⟩
    obtain ⟨c, piece, rest, rfl, hpiece⟩ : ∃ c piece rest, bs = piece ++ rest ∧ Piece piece rest c := by
      obtain ⟨front, rest, rfl, ⟨n, hseq⟩ | hcut⟩ := sequence_or_cut hne
      · exact ⟨Char.ofNat n, front, rest, rfl, hseq.encode ▸ .char _ rest⟩
      · exact ⟨_, front, rest, rfl, .malformed hcut.malformed⟩
    have hpos := List.length_pos_of_ne_nil hpiece.ne_nil
    rw [List.length_append] at hn
    obtain ⟨cs, hcs⟩ := ih rest.length (by omega) rest rfl
    exact ⟨c :: cs, .cons hpiece hcs⟩

/-- There is one way to read bytes, and it is the decoder's. -/
theorem reads_iff : Reads bs cs ↔ decodeLossy bs = cs := by
  refine ⟨Reads.decodeLossy_eq, ?_⟩
  rintro rfl
  obtain ⟨cs, hcs⟩ := exists_reads bs
  exact hcs.decodeLossy_eq ▸ hcs

theorem reads_decodeLossy (bs : List UInt8) : Reads bs (decodeLossy bs) := reads_iff.mpr rfl

/-- A character that a line break cuts short, and bytes with which none begins. -/
example : decodeLossy [0xE2, 0x82, 0x0A, 0xFF, 0xFF] = ['\ufffd', '\n', '\ufffd', '\ufffd'] := by
  decide

/-! ## ASCII -/

/-- The bytes of a character that is no byte of ASCII by itself are none of ASCII. -/
theorem encode_ascii (c : Char) : (∃ b, b < 0x80 ∧ utf8EncodeChar c = [b] ∧ c = byteChar b) ∨
    0x80 ≤ c.toNat ∧ ∀ b ∈ utf8EncodeChar c, ¬ b < 0x80 := by
  refine (sequence_encode c).ascii.imp ?_ id
  rintro ⟨b, hb, hbytes, hc⟩
  exact ⟨b, hb, hbytes, by rw [byteChar, ← hc, Char.ofNat_toNat]⟩

theorem encode_byteChar (h : b < 0x80) : utf8EncodeChar (byteChar b) = [b] := (Sequence.one h).encode

theorem Malformed.not_ascii (h : Malformed bad rest) : ∀ b ∈ bad, ¬ b < 0x80 := by
  obtain ⟨a, more, rfl⟩ := List.exists_cons_of_ne_nil h.ne_nil
  cases more with
  | nil =>
    intro b hb hascii
    obtain rfl := List.mem_singleton.mp hb
    exact h.no_char (byteChar b) ⟨rest, by rw [encode_byteChar hascii]⟩
  | cons a' more =>
    obtain ⟨c, hc⟩ := h.begins.resolve_left (by simp)
    rcases encode_ascii c with ⟨b, -, hbytes, -⟩ | ⟨-, hnone⟩
    · have hlength := hc.length_le
      rw [hbytes] at hlength
      simp at hlength
    · exact fun b hb => hnone b (hc.subset hb)

/-- Each piece is a byte of ASCII, which is read as it stands, or has nothing to do with ASCII. -/
theorem Piece.ascii (h : Piece piece rest c) : (∃ b, b < 0x80 ∧ piece = [b] ∧ c = byteChar b) ∨
    0x80 ≤ c.toNat ∧ ∀ b ∈ piece, ¬ b < 0x80 := by
  cases h with
  | char => exact encode_ascii c
  | malformed hbad => exact .inr ⟨by decide, hbad.not_ascii⟩

/-- The ASCII characters of what is read are the ASCII bytes, in their order. -/
theorem Reads.filter_ascii (h : Reads bs cs) :
    cs.filter (fun c => c.toNat < 0x80) = (bs.filter (· < 0x80)).map byteChar := by
  induction h with
  | nil => rfl
  | @cons piece rest c cs hpiece _ ih =>
    rw [List.filter_append, List.map_append, ← ih]
    rcases hpiece.ascii with ⟨b, hb, rfl, rfl⟩ | ⟨hc, hnone⟩
    · have hchar : (byteChar b).toNat < 0x80 := by
        rw [toNat_byteChar]
        exact lt_0x80_iff.mp hb
      simp [hb, hchar]
    · have hpiece : piece.filter (· < 0x80) = [] := by simpa using hnone
      rw [hpiece, List.filter_cons_of_neg (by simpa using hc)]
      rfl

/-! ## Joining -/

/-- What is read before a byte that begins anew does not change what is read from there. -/
theorem Reads.append (h : Reads front cs) (h' : Reads rest more)
    (hnext : ∀ x ∈ rest.head?, isTail x = false) : Reads (front ++ rest) (cs ++ more) := by
  induction h with
  | nil => exact h'
  | @cons piece front c cs hpiece _ ih =>
    rw [List.append_assoc, List.cons_append]
    refine .cons (hpiece.before fun x hx => ?_) ih
    cases front with
    | nil => exact .inr (hnext x hx)
    | cons => exact .inl hx

theorem isTail_head_encode (c : Char) (back : List UInt8) :
    ∀ x ∈ (utf8EncodeChar c ++ back).head?, isTail x = false := by
  have hseq := sequence_encode c
  obtain ⟨a, more, hbytes⟩ := List.exists_cons_of_ne_nil (String.utf8EncodeChar_ne_nil (c := c))
  rw [hbytes] at hseq ⊢
  rintro x ⟨⟩
  exact hseq.isTail.1

/-- A character is read wherever its bytes stand. -/
theorem decodeLossy_resumes (front : List UInt8) (c : Char) (back : List UInt8) :
    decodeLossy (front ++ (utf8EncodeChar c ++ back)) = decodeLossy front ++ c :: decodeLossy back :=
  ((reads_decodeLossy front).append (.cons (.char c back) (reads_decodeLossy back))
    (isTail_head_encode c back)).decodeLossy_eq

/-- UTF-8 is read as the text that it stands for. -/
theorem decodeLossy_encode (cs : List Char) : decodeLossy (cs.flatMap utf8EncodeChar) = cs := by
  induction cs with
  | nil => rfl
  | cons c cs ih =>
    have hfirst := decodeLossy_resumes [] c (cs.flatMap utf8EncodeChar)
    rw [ih] at hfirst
    exact hfirst

end Census.Text
