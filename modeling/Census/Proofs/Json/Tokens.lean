import Census.Proofs.Json.Scalar
/-!
Which tokens a text has, put together from the texts of its parts. The kinds of the tokens are all that
a reader of values looks at, the places are for faults.
-/

namespace Census.Json

variable {c : Char} {s : String} {t u rest : List Char} {k : TokenKind} {ks vs us : List TokenKind}

/-- With every bound on the steps that is large enough, the tokens of a text are of these kinds. -/
def Spells (text : List Char) (ks : List TokenKind) : Prop :=
  ∀ fuel, text.length < fuel → (readTokens fuel text).map Token.kind = ks

/-- A part of a text has tokens of these kinds wherever no number goes on behind it. -/
def Lexes (t : List Char) (ks : List TokenKind) : Prop :=
  ∀ rest more, EndsNumber rest → Spells rest more → Spells (t ++ rest) (ks ++ more)

/-- A number in front of a text does not go on into it. -/
def Stops (t : List Char) : Prop := ∀ rest, EndsNumber rest → EndsNumber (t ++ rest)

def marks : List (Char × TokenKind) := [
  ('\x7b', .leftBrace), ('\x7d', .rightBrace), ('[', .leftBracket), (']', .rightBracket),
  (':', .colon), (',', .comma)]

/-! ## One token -/

theorem isBlank_iff : isBlank c = true ↔ c ∈ [' ', '\n', '\t', '\r'] := by
  simp [isBlank, or_assoc]

theorem readToken_blank : ∀ c ∈ [' ', '\n', '\t', '\r'], ∀ t, (readToken (c :: t)).kind = .other := by
  simp [readToken]

theorem readToken_mark : ∀ m ∈ marks, ∀ t, readToken (m.1 :: t) = ⟨m.2, m.1 :: t, t⟩ := by
  simp [marks, readToken]

theorem isLast_mark : ∀ m ∈ marks, m.2.isLast = false := by
  decide

theorem dropWhile_blanks (h : Blanks t) (rest : List Char) :
    (t ++ rest).dropWhile isBlank = rest.dropWhile isBlank :=
  List.dropWhile_append_of_pos fun c hc => isBlank_iff.mpr (h c hc)

theorem dropWhile_of_kind (h : (readToken t).kind ≠ .other) : t.dropWhile isBlank = t := by
  cases t with
  | nil => rfl
  | cons c t =>
    by_cases hc : isBlank c = true
    · exact absurd (readToken_blank c (isBlank_iff.mp hc) t) h
    · simp [hc]

/-- A blank is no token. -/
theorem dropWhile_of_token (h : (readToken t).kind.isLast = false) : t.dropWhile isBlank = t := by
  refine dropWhile_of_kind fun hother => ?_
  rw [hother] at h
  contradiction

theorem spells_nil : Spells [] [.eof] := by
  intro fuel hf
  obtain ⟨fuel, rfl⟩ := Nat.exists_eq_succ_of_ne_zero (Nat.ne_zero_of_lt hf)
  rfl

theorem Spells.blanks (h : Blanks t) (hr : Spells rest ks) : Spells (t ++ rest) ks := by
  intro fuel hf
  have hread : readTokens fuel (t ++ rest) = readTokens fuel rest := by
    cases fuel with
    | zero => rfl
    | succ fuel => rw [readTokens, readTokens, dropWhile_blanks h]
  rw [hread]
  exact hr fuel (by rw [List.length_append] at hf; omega)

theorem Spells.token {start : List Char} (ht : t ≠ []) (h : readToken (t ++ rest) = ⟨k, start, rest⟩)
    (hk : k.isLast = false) (hr : Spells rest ks) : Spells (t ++ rest) (k :: ks) := by
  intro fuel hf
  have hpos := List.length_pos_iff.mpr ht
  rw [List.length_append] at hf
  obtain ⟨fuel, rfl⟩ := Nat.exists_eq_succ_of_ne_zero (Nat.ne_zero_of_lt hf)
  rw [readTokens, dropWhile_of_token (by rw [h]; exact hk), h]
  simp [hk, hr fuel (by omega)]

/-! ## Parts of a text -/

theorem stops_cons (h : continuesNumber c = false) : Stops (c :: t) := by
  intro rest _ d hd
  obtain rfl : c = d := by simpa using hd
  exact h

theorem stops_mark (h : (c, k) ∈ marks) : Stops (c :: t) := by
  have hmarks : ∀ m ∈ marks, continuesNumber m.1 = false := by decide
  exact stops_cons (hmarks _ h)

theorem stops_blanks (h : Blanks t) : Stops t := by
  have hblanks : ∀ c ∈ [' ', '\n', '\t', '\r'], continuesNumber c = false := by
    simp [continuesNumber]
  cases t with
  | nil => exact fun _ he => he
  | cons c t => exact stops_cons (hblanks c (h c List.mem_cons_self))

theorem lexes_nil : Lexes [] [] := fun _ _ _ hr => hr

theorem Lexes.blanks (h : Blanks t) (hu : Lexes u us) : Lexes (t ++ u) us := by
  intro rest more he hr
  rw [List.append_assoc]
  exact (hu rest more he hr).blanks h

theorem lexes_blanks (h : Blanks t) : Lexes t [] := by
  simpa using lexes_nil.blanks h

theorem Lexes.append (ht : Lexes t vs) (hu : Lexes u us) (hs : Stops u) :
    Lexes (t ++ u) (vs ++ us) := by
  intro rest more he hr
  rw [List.append_assoc, List.append_assoc]
  exact ht _ _ (hs rest he) (hu rest more he hr)

theorem Lexes.mark (h : (c, k) ∈ marks) (hu : Lexes u us) : Lexes (c :: u) (k :: us) := by
  intro rest more he hr
  exact .token (t := [c]) (List.cons_ne_nil c []) (readToken_mark _ h _) (isLast_mark _ h)
    (hu rest more he hr)

/-- A part between an opening and a closing mark. -/
theorem Lexes.enclosed {d : Char} {l : TokenKind} (hc : (c, k) ∈ marks) (hd : (d, l) ∈ marks)
    (ht : Lexes t ks) : Lexes (c :: t ++ [d]) (k :: (ks ++ [l])) :=
  (ht.append (lexes_nil.mark hd) (stops_mark hd)).mark hc

/-- A part before a comma and the parts after it. -/
theorem Lexes.before_comma (ht : Lexes t vs) (hu : Lexes u us) :
    Lexes (t ++ ',' :: u) (vs ++ .comma :: us) := by
  have hcomma : (',', .comma) ∈ marks := by decide
  exact ht.append (hu.mark hcomma) (stops_mark hcomma)

theorem StringText.ne_nil (h : StringText s t) : t ≠ [] := by
  cases h
  simp

theorem Lexes.string (h : StringText s t) (hu : Lexes u us) :
    Lexes (t ++ u) (.string s :: us) := by
  intro rest more he hr
  rw [List.append_assoc]
  exact .token h.ne_nil (h.read _) rfl (hu rest more he hr)

/-- A text that is one part has its tokens and then the end. -/
theorem Lexes.tokens (h : Lexes t ks) : (tokens t).map Token.kind = ks ++ [.eof] := by
  have hspells := h [] [.eof] (by simp [EndsNumber]) spells_nil
  rw [List.append_nil] at hspells
  exact hspells _ (Nat.lt_succ_self _)

theorem lexes_natural {n : Nat} (h : n < UInt64.size) :
    Lexes (toString n).toList [.number (.natural n)] := by
  intro rest more he hr
  exact .token (by simp) (readToken_toString h he) rfl hr

theorem lexes_null : Lexes "null".toList [.null] := fun _ _ _ hr => .token (by simp) rfl rfl hr

theorem lexes_boolean (b : Bool) : Lexes (toString b).toList [.boolean b] := by
  cases b <;> exact fun _ _ _ hr => .token (by simp [toString]) rfl rfl hr

end Census.Json
