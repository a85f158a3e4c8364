import Census.Proofs.Json.Spelling
import Census.Proofs.Json.Tokens
/-!
The tokens of a text one after another. Every token takes at least one character, so the tokens of a text are
its first token and the tokens of the text behind it; and a token that the grammar knows has a text of
the grammar.
-/

namespace Census.Json

variable {cs rest t : List Char} {k : TokenKind} {fuel m : Nat}

/-! ## One token -/

/-- A token of some kind is written like this. Of the numbers only the natural ones are here. -/
inductive TokenText : TokenKind → List Char → Prop where
  | mark {c : Char} {k : TokenKind} : (c, k) ∈ marks → TokenText k [c]
  | null : TokenText .null "null".toList
  | boolean (b : Bool) : TokenText (.boolean b) (toString b).toList
  | natural {m : Nat} : m < UInt64.size → TokenText (.number (.natural m)) (toString m).toList
  | string {s : String} {t : List Char} : StringText s t → TokenText (.string s) t

/-- A kind of token that stands for a number which is not natural. -/
def TokenKind.isRounded : TokenKind → Bool
  | .number (.natural _) => false
  | .number _ => true
  | _ => false

/-- The front of a text is a token: it has been passed over, and it is written as the grammar has it. -/
structure Spelled (t : Token) (cs : List Char) : Prop where
  shorter : t.rest.length < cs.length
  text : t.kind.isRounded = false → ∃ u, TokenText t.kind u ∧ cs = u ++ t.rest

theorem readWord_spells {letters : List Char} (h : readWord letters cs = .ok rest) :
    cs = letters ++ rest := by
  induction letters generalizing cs with
  | nil => exact Except.ok.inj h
  | cons w ws ih =>
    cases cs with
    | nil => contradiction
    | cons c cs =>
      rw [readWord] at h
      split at h
      · rename_i heq
        rw [eq_of_beq heq, ih h]
        rfl
      · contradiction

theorem wordToken_spells {letters : String} {c : Char} (hk : TokenText k (c :: letters.toList))
    (h : (wordToken k letters (c :: cs) cs).kind.isLast = false) :
    Spelled (wordToken k letters (c :: cs) cs) (c :: cs) := by
  unfold wordToken at h ⊢
  split
  · rename_i after hword
    obtain rfl := readWord_spells hword
    exact ⟨length_lt_cons_append, fun _ => ⟨_, hk, rfl⟩⟩
  · rename_i fault hword
    rw [hword] at h
    contradiction

theorem numberToken_spells {isNegative : Bool} {start : List Char}
    (h : (numberToken isNegative start cs).kind.isLast = false) (hle : cs.length ≤ start.length)
    (hstart : isNegative = false → start = cs) :
    Spelled (numberToken isNegative start cs) start := by
  unfold numberToken at h ⊢
  split
  · rename_i x after hnumber
    have hspells (m : Nat) := readMagnitude_spells (m := m) hnumber
    refine ⟨Nat.lt_of_lt_of_le (hspells 0).1 hle, fun hround => ?_⟩
    cases x with
    | natural m =>
      obtain ⟨hsign, hm, rfl⟩ := (hspells m).2 rfl
      exact ⟨_, .natural hm, hstart hsign⟩
    | negative m => contradiction
    | rounded isNegative f => contradiction
  · rename_i fault hnumber
    rw [hnumber] at h
    contradiction

theorem readToken_spells (h : (readToken cs).kind.isLast = false) : Spelled (readToken cs) cs := by
  have hmark {c : Char} {k : TokenKind} {cs : List Char} (hc : (c, k) ∈ marks) :
      Spelled ⟨k, c :: cs, cs⟩ (c :: cs) := ⟨by simp, fun _ => ⟨[c], .mark hc, rfl⟩⟩
  cases cs with
  | nil => contradiction
  | cons c cs =>
    unfold readToken at h ⊢
    dsimp only at h ⊢
    split at h
    · exact hmark (by decide)
    · exact hmark (by decide)
    · exact hmark (by decide)
    · exact hmark (by decide)
    · exact hmark (by decide)
    · exact hmark (by decide)
    · exact wordToken_spells .null h
    · exact wordToken_spells (.boolean true) h
    · exact wordToken_spells (.boolean false) h
    · split at h
      · rename_i s after hstring
        obtain ⟨t, ht, rfl⟩ := readString_spells hstring
        exact ⟨length_lt_cons_append, fun _ => ⟨_, .string ht, rfl⟩⟩
      · contradiction
    · exact numberToken_spells h (by simp) nofun
    · split at h
      · rename_i hdigit
        rw [if_pos hdigit]
        exact numberToken_spells h (Nat.le_refl _) fun _ => rfl
      · contradiction

/-! ## The tokens of a text -/

theorem readTokens_eq (fuel : Nat) (cs : List Char) (h : cs.length < fuel) :
    readTokens fuel cs = tokens cs := by
  have hstable : ∀ bound (cs : List Char), cs.length < bound → ∀ fuel fuel', cs.length < fuel →
      cs.length < fuel' → readTokens fuel cs = readTokens fuel' cs := by
    intro bound
    induction bound with
    | zero => exact fun cs hcs => absurd hcs (Nat.not_lt_zero _)
    | succ bound ih =>
      intro cs hcs fuel fuel' hf hf'
      obtain ⟨fuel, rfl⟩ := Nat.exists_eq_succ_of_ne_zero (Nat.ne_zero_of_lt hf)
      obtain ⟨fuel', rfl⟩ := Nat.exists_eq_succ_of_ne_zero (Nat.ne_zero_of_lt hf')
      rw [readTokens, readTokens]
      split
      · rfl
      · rename_i hlast
        have hspelled := readToken_spells (Bool.eq_false_iff.mpr hlast)
        have hdrop : (cs.dropWhile isBlank).length ≤ cs.length := (List.dropWhile_suffix _).length_le
        have hshorter := hspelled.shorter
        rw [ih _ (by omega) fuel fuel' (by omega) (by omega)]
  exact hstable (cs.length + 1) cs (Nat.lt_succ_self _) _ _ h (Nat.lt_succ_self _)

theorem tokens_eq (cs : List Char) : tokens cs =
    if (readToken (cs.dropWhile isBlank)).kind.isLast then [readToken (cs.dropWhile isBlank)]
    else readToken (cs.dropWhile isBlank) :: tokens (readToken (cs.dropWhile isBlank)).rest := by
  rw [tokens, readTokens]
  split
  · rfl
  · rename_i hlast
    have hspelled := readToken_spells (Bool.eq_false_iff.mpr hlast)
    have hdrop : (cs.dropWhile isBlank).length ≤ cs.length := (List.dropWhile_suffix _).length_le
    have hshorter := hspelled.shorter
    rw [readTokens_eq _ _ (by omega)]

theorem tokens_blanks (h : Blanks t) (rest : List Char) : tokens (t ++ rest) = tokens rest := by
  rw [tokens_eq, tokens_eq rest, dropWhile_blanks h]

/-- A token at the front of a text is followed by the tokens behind it. -/
theorem tokens_token {start : List Char} (h : readToken (t ++ rest) = ⟨k, start, rest⟩)
    (hk : k.isLast = false) : tokens (t ++ rest) = ⟨k, start, rest⟩ :: tokens rest := by
  have hfirst : (readToken (t ++ rest)).kind.isLast = false := by rw [h]; exact hk
  rw [tokens_eq, dropWhile_of_token hfirst, h, if_neg (Bool.eq_false_iff.mp hk)]

theorem headToken_tokens (cs : List Char) : headToken (tokens cs) = readToken (cs.dropWhile isBlank) := by
  rw [tokens_eq]
  split <;> rfl

theorem blanks_takeWhile (cs : List Char) : Blanks (cs.takeWhile isBlank) := fun c hc =>
  isBlank_iff.mp (List.all_eq_true.mp List.all_takeWhile c hc)

/-- Where the first token is one of the grammar, the text starts with blanks and a text of it, and the other
tokens are those of the rest. -/
theorem tokens_spells (hk : (headToken (tokens cs)).kind = k) (hlast : k.isLast = false)
    (hround : k.isRounded = false) :
    ∃ a u rest, Blanks a ∧ TokenText k u ∧ cs = a ++ u ++ rest ∧ (tokens cs).tail = tokens rest := by
  subst hk
  rw [headToken_tokens] at hlast hround ⊢
  obtain ⟨u, hu, hcs⟩ := (readToken_spells hlast).text hround
  refine ⟨cs.takeWhile isBlank, u, (readToken (cs.dropWhile isBlank)).rest, blanks_takeWhile cs, hu, ?_,
    ?_⟩
  · rw [List.append_assoc, ← hcs, List.takeWhile_append_dropWhile]
  · rw [tokens_eq, if_neg (Bool.eq_false_iff.mp hlast)]
    rfl

theorem wordToken_ne_eof {letters : String} {start : List Char} (hk : k ≠ .eof) :
    (wordToken k letters start rest).kind ≠ .eof := by
  unfold wordToken
  split
  · exact hk
  · nofun

theorem numberToken_ne_eof {isNegative : Bool} {start : List Char} :
    (numberToken isNegative start rest).kind ≠ .eof := by
  unfold numberToken
  split <;> nofun

theorem eq_nil_of_eof (h : (readToken cs).kind = .eof) : cs = [] := by
  cases cs with
  | nil => rfl
  | cons c cs =>
    unfold readToken at h
    dsimp only at h
    split at h
    case h_7 => exact absurd h (wordToken_ne_eof nofun)
    case h_8 => exact absurd h (wordToken_ne_eof nofun)
    case h_9 => exact absurd h (wordToken_ne_eof nofun)
    case h_10 => split at h <;> contradiction
    case h_11 => exact absurd h numberToken_ne_eof
    case h_12 =>
      split at h
      · exact absurd h numberToken_ne_eof
      · contradiction
    all_goals contradiction

theorem blanks_of_eof (h : (headToken (tokens cs)).kind = .eof) : Blanks cs := by
  rw [headToken_tokens] at h
  have happend := List.takeWhile_append_dropWhile (p := isBlank) (l := cs)
  rw [eq_nil_of_eof h, List.append_nil] at happend
  have hblanks := blanks_takeWhile cs
  rwa [happend] at hblanks

end Census.Json
