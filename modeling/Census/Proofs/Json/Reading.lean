import Census.Proofs.Json.Tokens
import Census.Proofs.Json.Written
/-!
The reader accepts every text of the grammar and gives its value. Each part of a text has tokens, and
from these tokens, whatever follows them, the reader takes the part.
-/

namespace Census.Json

variable {n fuel : Nat} {v w : Value} {vs : List Value} {ms : List (String × Value)} {text : List Char}
  {ks us : List TokenKind} {ts : List Token}

/-! ## What the reader takes

Twice the number of its tokens bounds the steps of a part; a list or an object also takes a step for its
end. -/

/-- From tokens of these kinds, with others behind them, a value is read. -/
def ReadsValue (n : Nat) (v : Value) (ks : List TokenKind) : Prop :=
  ∀ fuel ts more, 2 * ks.length ≤ fuel → ts.map Token.kind = ks ++ more →
    ∃ after, readValue fuel n ts = .ok (v, after) ∧ after.map Token.kind = more

def ReadsItems (n : Nat) (vs : List Value) (ks : List TokenKind) : Prop :=
  ∀ fuel ts more, 2 * ks.length + 1 ≤ fuel → ts.map Token.kind = ks ++ .rightBracket :: more →
    nextElement true ts = .ok (some ts) ∧
      ∃ after, readItems fuel n true ts = .ok (vs, after) ∧ after.map Token.kind = more

/-- Members start with a key. -/
def ReadsMembers (n : Nat) (ms : List (String × Value)) (ks : List TokenKind) : Prop :=
  ∀ fuel ts more, 2 * ks.length + 1 ≤ fuel → ts.map Token.kind = ks ++ .rightBrace :: more →
    (∃ key, (headToken ts).kind = .string key) ∧
      ∃ after, readWritten fuel n true ts = .ok (ms, after) ∧ after.map Token.kind = more

theorem exists_head {k : TokenKind} (h : ts.map Token.kind = k :: ks) :
    ∃ t rest, ts = t :: rest ∧ (headToken ts).kind = k ∧ rest.map Token.kind = ks := by
  obtain ⟨t, rest, rfl, hk, hrest⟩ := List.map_eq_cons_iff.mp h
  exact ⟨t, rest, rfl, hk, hrest⟩

/-! ## Values -/

theorem readsValue_scalar {k : TokenKind} (h : ∀ fuel ts, (headToken ts).kind = k →
    readValue (fuel + 1) n ts = .ok (v, ts.tail)) : ReadsValue n v [k] := by
  intro fuel ts more hf hk
  obtain ⟨fuel, rfl⟩ := Nat.exists_eq_add_of_le' (show 1 ≤ fuel by simp at hf; omega)
  obtain ⟨t, rest, rfl, hhead, hrest⟩ := exists_head hk
  exact ⟨rest, h fuel _ hhead, hrest⟩

/-- A value does not start like the end of a list. -/
theorem nextElement_of_readValue {r : Value × List Token} (h : readValue fuel n ts = .ok r) :
    nextElement true ts = .ok (some ts) := by
  cases fuel with
  | zero => simp [readValue] at h
  | succ fuel =>
    unfold nextElement
    cases hk : (headToken ts).kind <;> simp_all [readValue]

theorem nextElement_comma {t : Token} (ht : t.kind = .comma) (h : nextElement true ts = .ok (some ts)) :
    nextElement false (t :: ts) = .ok (some ts) := by
  unfold nextElement at h ⊢
  simp only [headToken, List.headD_cons, ht, List.tail_cons] at h ⊢
  cases hk : (ts.headD ⟨.eof, [], []⟩).kind <;> simp_all

theorem ReadsValue.length_pos (h : ReadsValue n v ks) : 0 < ks.length := by
  rw [List.length_pos_iff]
  rintro rfl
  obtain ⟨_, hread, -⟩ := h 0 [] [] (Nat.le_refl 0) rfl
  simp [readValue] at hread

/-! ## Lists -/

theorem readItems_end (h : (headToken ts).kind = .rightBracket) (isFirst : Bool) :
    readItems (fuel + 1) n isFirst ts = .ok ([], ts.tail) := by
  simp [readItems, nextElement, h]

theorem readItems_item {after : List Token} (hfirst : nextElement true ts = .ok (some ts))
    (hv : readValue fuel n ts = .ok (v, after)) :
    readItems (fuel + 1) n true ts =
      (readItems fuel n false after).map fun r => (v :: r.1, r.2) := by
  simp only [readItems, hfirst, hv, ok_bind]
  cases readItems fuel n false after <;> rfl

/-- Behind a comma the items go on as if they were the first. -/
theorem readItems_comma {t : Token} (ht : t.kind = .comma) (h : nextElement true ts = .ok (some ts)) :
    readItems (fuel + 1) n false (t :: ts) = readItems (fuel + 1) n true ts := by
  simp only [readItems, nextElement_comma ht h, h, ok_bind]

theorem ReadsValue.last_item (h : ReadsValue n v ks) : ReadsItems n [v] ks := by
  intro fuel ts more hf hk
  have hpos := h.length_pos
  obtain ⟨fuel, rfl⟩ := Nat.exists_eq_add_of_le' (show 2 ≤ fuel by omega)
  obtain ⟨after, hread, hafter⟩ := h (fuel + 1) ts _ (by omega) hk
  obtain ⟨_, rest, rfl, hhead, hrest⟩ := exists_head hafter
  have hfirst := nextElement_of_readValue hread
  refine ⟨hfirst, rest, ?_, hrest⟩
  rw [readItems_item hfirst hread, readItems_end hhead]
  rfl

theorem ReadsValue.cons_items (h : ReadsValue n v ks) (hs : ReadsItems n vs us) :
    ReadsItems n (v :: vs) (ks ++ .comma :: us) := by
  intro fuel ts more hf hk
  rw [List.length_append, List.length_cons] at hf
  rw [List.append_assoc, List.cons_append] at hk
  obtain ⟨fuel, rfl⟩ := Nat.exists_eq_add_of_le' (show 2 ≤ fuel by omega)
  obtain ⟨after, hread, hafter⟩ := h (fuel + 1) ts _ (by omega) hk
  obtain ⟨comma, rest, rfl, hcomma, hrest⟩ := exists_head hafter
  -- the item took one step, so what its tokens and the comma leave is enough for the others
  obtain ⟨hnext, last, hitems, hlast⟩ := hs (fuel + 1) rest more (by omega) hrest
  have hfirst := nextElement_of_readValue hread
  refine ⟨hfirst, last, ?_, hlast⟩
  rw [readItems_item hfirst hread, readItems_comma (t := comma) hcomma hnext, hitems]
  rfl

theorem readValue_array (h : (headToken ts).kind = .leftBracket) :
    readValue (fuel + 1) (n + 1) ts =
      (readItems fuel n true ts.tail).map fun r => (.array r.1, r.2) := by
  simp only [readValue, h]
  cases readItems fuel n true ts.tail <;> rfl

theorem readsValue_emptyArray : ReadsValue (n + 1) (.array []) [.leftBracket, .rightBracket] := by
  intro fuel ts more hf hk
  obtain ⟨fuel, rfl⟩ := Nat.exists_eq_add_of_le' (show 2 ≤ fuel by simp at hf; omega)
  obtain ⟨_, inner, rfl, hopen, hinner⟩ := exists_head hk
  obtain ⟨_, rest, rfl, hclose, hrest⟩ := exists_head hinner
  refine ⟨rest, ?_, hrest⟩
  rw [readValue_array hopen, List.tail_cons, readItems_end hclose]
  rfl

theorem ReadsItems.array (h : ReadsItems n vs ks) :
    ReadsValue (n + 1) (.array vs) (.leftBracket :: (ks ++ [.rightBracket])) := by
  intro fuel ts more hf hk
  simp only [List.length_cons, List.length_append, List.length_nil] at hf
  rw [List.cons_append, List.append_assoc] at hk
  obtain ⟨fuel, rfl⟩ := Nat.exists_eq_add_of_le' (show 1 ≤ fuel by omega)
  obtain ⟨_, inner, rfl, hopen, hinner⟩ := exists_head hk
  obtain ⟨-, rest, hitems, hrest⟩ := h fuel inner more (by omega) hinner
  refine ⟨rest, ?_, hrest⟩
  rw [readValue_array hopen, List.tail_cons, hitems]
  rfl

/-! ## Objects -/

theorem readWritten_end (h : (headToken ts).kind = .rightBrace) (isFirst : Bool) :
    readWritten (fuel + 1) n isFirst ts = .ok ([], ts.tail) := by
  simp [readWritten, nextKey, h]

theorem nextKey_string {key : String} (h : (headToken ts).kind = .string key) :
    nextKey true ts = .ok (some (key, ts.tail)) := by
  simp only [nextKey, h, readKey]
  rfl

theorem readWritten_member {key : String} {colon : Token} {after rest : List Token}
    (hkey : (headToken ts).kind = .string key) (hrest : ts.tail = colon :: rest)
    (hcolon : colon.kind = .colon) (hv : readValue fuel n rest = .ok (v, after)) :
    readWritten (fuel + 1) n true ts =
      (readWritten fuel n false after).map fun r => ((key, v) :: r.1, r.2) := by
  simp only [readWritten, nextKey_string hkey, hrest, expectColon, headToken, List.headD_cons, hcolon,
    List.tail_cons, ok_bind, hv]
  cases readWritten fuel n false after <;> rfl

/-- Behind a comma the members go on as if they were the first. -/
theorem readWritten_comma {key : String} {t : Token} (ht : t.kind = .comma)
    (h : (headToken ts).kind = .string key) :
    readWritten (fuel + 1) n false (t :: ts) = readWritten (fuel + 1) n true ts := by
  have hnext : nextKey true ts = .ok (some (key, ts.tail)) := nextKey_string h
  have hcomma : nextKey false (t :: ts) = .ok (some (key, ts.tail)) := by
    have hhead : headToken (t :: ts) = t := rfl
    simp only [nextKey, hhead, ht, List.tail_cons, h, readKey]
    rfl
  simp only [readWritten, hcomma, hnext, ok_bind]

theorem ReadsValue.last_member {key : String} (h : ReadsValue n v ks) :
    ReadsMembers n [(key, v)] (.string key :: .colon :: ks) := by
  intro fuel ts more hf hk
  simp only [List.length_cons] at hf
  obtain ⟨fuel, rfl⟩ := Nat.exists_eq_add_of_le' (show 2 ≤ fuel by omega)
  obtain ⟨_, inner, rfl, hkey, hinner⟩ := exists_head hk
  obtain ⟨colon, rest, rfl, hcolon, hrest⟩ := exists_head hinner
  obtain ⟨after, hread, hafter⟩ := h (fuel + 1) rest _ (by omega) hrest
  obtain ⟨_, last, rfl, hclose, hlast⟩ := exists_head hafter
  refine ⟨⟨key, hkey⟩, last, ?_, hlast⟩
  rw [readWritten_member hkey rfl hcolon hread, readWritten_end hclose]
  rfl

theorem ReadsValue.cons_members {key : String} (h : ReadsValue n v ks) (hs : ReadsMembers n ms us) :
    ReadsMembers n ((key, v) :: ms) (.string key :: .colon :: (ks ++ .comma :: us)) := by
  intro fuel ts more hf hk
  simp only [List.length_cons, List.length_append] at hf
  simp only [List.cons_append, List.append_assoc] at hk
  obtain ⟨fuel, rfl⟩ := Nat.exists_eq_add_of_le' (show 2 ≤ fuel by omega)
  obtain ⟨_, inner, rfl, hkey, hinner⟩ := exists_head hk
  obtain ⟨colon, rest, rfl, hcolon, hrest⟩ := exists_head hinner
  obtain ⟨after, hread, hafter⟩ := h (fuel + 1) rest _ (by omega) hrest
  obtain ⟨comma, behind, rfl, hcomma, hbehind⟩ := exists_head hafter
  obtain ⟨⟨_, hnext⟩, last, hmembers, hlast⟩ := hs (fuel + 1) behind more (by omega) hbehind
  refine ⟨⟨key, hkey⟩, last, ?_, hlast⟩
  rw [readWritten_member hkey rfl hcolon hread, readWritten_comma (t := comma) hcomma hnext, hmembers]
  rfl

theorem readValue_object (h : (headToken ts).kind = .leftBrace) :
    readValue (fuel + 1) (n + 1) ts =
      (readWritten fuel n true ts.tail).map fun r => (.object (keptMembers r.1), r.2) := by
  simp only [readValue, h, readMembers_eq_written]
  cases readWritten fuel n true ts.tail <;> rfl

theorem readsValue_emptyObject : ReadsValue (n + 1) (.object []) [.leftBrace, .rightBrace] := by
  intro fuel ts more hf hk
  obtain ⟨fuel, rfl⟩ := Nat.exists_eq_add_of_le' (show 2 ≤ fuel by simp at hf; omega)
  obtain ⟨_, inner, rfl, hopen, hinner⟩ := exists_head hk
  obtain ⟨_, rest, rfl, hclose, hrest⟩ := exists_head hinner
  refine ⟨rest, ?_, hrest⟩
  rw [readValue_object hopen, List.tail_cons, readWritten_end hclose]
  rfl

theorem ReadsMembers.object (h : ReadsMembers n ms ks) :
    ReadsValue (n + 1) (.object (keptMembers ms)) (.leftBrace :: (ks ++ [.rightBrace])) := by
  intro fuel ts more hf hk
  simp only [List.length_cons, List.length_append, List.length_nil] at hf
  rw [List.cons_append, List.append_assoc] at hk
  obtain ⟨fuel, rfl⟩ := Nat.exists_eq_add_of_le' (show 1 ≤ fuel by omega)
  obtain ⟨_, inner, rfl, hopen, hinner⟩ := exists_head hk
  obtain ⟨-, rest, hmembers, hrest⟩ := h fuel inner more (by omega) hinner
  refine ⟨rest, ?_, hrest⟩
  rw [readValue_object hopen, List.tail_cons, hmembers]
  rfl

/-! ## Texts of the grammar -/

mutual

theorem ValueText.reads {n : Nat} {v : Value} {t : List Char} :
    ValueText n v t → ∃ ks, Lexes t ks ∧ ReadsValue n v ks
  | .null => ⟨_, lexes_null, readsValue_scalar fun _ _ h => by simp [readValue, h]⟩
  | .boolean => ⟨_, lexes_boolean _, readsValue_scalar fun _ _ h => by simp [readValue, h]⟩
  | .natural hm => ⟨_, lexes_natural hm, readsValue_scalar fun _ _ h => by simp [readValue, h]⟩
  | .string hs => by
    have hlex := lexes_nil.string hs
    rw [List.append_nil] at hlex
    exact ⟨_, hlex, readsValue_scalar fun _ _ h => by simp [readValue, h]⟩
  | .emptyArray hb => ⟨_, (lexes_blanks hb).enclosed (by decide) (by decide), readsValue_emptyArray⟩
  | .array hitems => by
    obtain ⟨ks, hlex, hread⟩ := hitems.reads
    exact ⟨_, hlex.enclosed (by decide) (by decide), hread.array⟩
  | .emptyObject hb => ⟨_, (lexes_blanks hb).enclosed (by decide) (by decide), readsValue_emptyObject⟩
  | .object hmembers => by
    obtain ⟨ks, hlex, hread⟩ := hmembers.reads
    exact ⟨_, hlex.enclosed (by decide) (by decide), hread.object⟩

theorem ElementText.reads {n : Nat} {v : Value} {t : List Char} :
    ElementText n v t → ∃ ks, Lexes t ks ∧ ReadsValue n v ks
  | .spaced ha hv hb => by
    obtain ⟨ks, hlex, hread⟩ := hv.reads
    refine ⟨ks, ?_, hread⟩
    have hall := (hlex.append (lexes_blanks hb) (stops_blanks hb)).blanks ha
    simpa using hall

theorem ItemsText.reads {n : Nat} {vs : List Value} {t : List Char} :
    ItemsText n vs t → ∃ ks, Lexes t ks ∧ ReadsItems n vs ks
  | .last he => by
    obtain ⟨ks, hlex, hread⟩ := he.reads
    exact ⟨ks, hlex, hread.last_item⟩
  | .more he hs => by
    obtain ⟨ks, hlex, hread⟩ := he.reads
    obtain ⟨us, hlexs, hreads⟩ := hs.reads
    exact ⟨_, hlex.before_comma hlexs, hread.cons_items hreads⟩

theorem MemberText.reads {n : Nat} {m : String × Value} {t : List Char} :
    MemberText n m t → ∃ ks, Lexes t (.string m.1 :: .colon :: ks) ∧ ReadsValue n m.2 ks
  | .colon ha hkey hb he => by
    obtain ⟨ks, hlex, hread⟩ := he.reads
    refine ⟨ks, ?_, hread⟩
    have hmark := hlex.mark (by decide : (':', .colon) ∈ marks)
    simpa using ((hmark.blanks hb).string hkey).blanks ha

theorem MembersText.reads {n : Nat} {ms : List (String × Value)} {t : List Char} :
    MembersText n ms t → ∃ ks, Lexes t ks ∧ ReadsMembers n ms ks
  | .last hm => by
    obtain ⟨ks, hlex, hread⟩ := hm.reads
    exact ⟨_, hlex, hread.last_member⟩
  | .more hm hs => by
    obtain ⟨ks, hlex, hread⟩ := hm.reads
    obtain ⟨us, hlexs, hreads⟩ := hs.reads
    exact ⟨_, hlex.before_comma hlexs, hread.cons_members hreads⟩

end

/-- The reader is complete for the grammar. -/
theorem IsDocument.read (h : IsDocument v text) : Value.read text = .ok v := by
  obtain ⟨ks, hlex, hread⟩ := h.reads
  have htokens := hlex.tokens
  have hlength : (tokens text).length = ks.length + 1 := by
    simpa using congrArg List.length htokens
  -- the bound of a whole text covers that of its value, and only the end is left
  obtain ⟨after, hvalue, hafter⟩ :=
    hread (2 * (tokens text).length + 2) (tokens text) [.eof] (by omega) htokens
  obtain ⟨_, _, rfl, heof, -⟩ := exists_head hafter
  simp [Value.read, Value.ofTokens, hvalue, expectEnd, heof]

/-- A text has no second value. -/
theorem IsDocument.unique (hv : IsDocument v text) (hw : IsDocument w text) : v = w :=
  Except.ok.inj (hv.read.symm.trans hw.read)

end Census.Json
