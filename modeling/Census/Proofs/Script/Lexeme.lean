import Census.Proofs.Script.Within
/-!
What is read as one token, and what stands before it, is within the characters that were left where the
reading began.
-/

namespace Census.Script

open Census.Text (Pos)
open Census.Number (Numeral)

variable {n pos start : Pos} {cs : List Char} {faults : List Fault} {used fuel : Nat}

@[simp, grind =] theorem within_broken {before : List Fault} {cause : Cause} :
    Within n (Lexeme.broken used before pos cause) ↔ pos ≤ n ∧ Within n before := by
  simp [Lexeme.broken]

/-! ## Numerals -/

theorem separatorFaults_within (h : pos ≤ n) (misplaced : Bool) :
    Within n (separatorFaults pos misplaced) := by
  cases misplaced <;> simp [separatorFaults, h]

theorem finishNumber_within (h : pos ≤ n) (hf : Within n faults) (value : Numeral) :
    Within n (finishNumber cs pos value used faults) := by
  unfold finishNumber
  split
  · exact within_broken.mpr ⟨sub_within h _, hf⟩
  · simp [hf]

theorem readBaseNumber_within (h : pos ≤ n) (base : Nat) (name : String) :
    Within n (readBaseNumber base name cs pos) := by
  have hseps := separatorFaults_within h
  simp only [readBaseNumber]
  split
  · exact within_broken.mpr ⟨sub_within h _, within_nil⟩
  · split
    · simp [hseps]
    · exact finishNumber_within h (hseps _) _

theorem readFraction_within (h : pos ≤ n) (hf : Within n faults) (whole : List Nat) :
    Within n (readFraction cs pos whole used faults) := by
  have hseps := separatorFaults_within h
  simp only [readFraction]
  split
  · exact finishNumber_within h (by simp [hf, hseps]) _
  · exact within_broken.mpr ⟨sub_within (sub_within h _) _, by simp [hf, hseps]⟩
  · exact finishNumber_within h (by simp [hf, hseps]) _

theorem finishLegacyOctal_within (h : pos ≤ n) (hf : Within n faults) (ds : Digits) :
    Within n (finishLegacyOctal cs pos ds faults) := by
  have hl : Within n (finishNumber cs pos (.inBase 8 ds.values) ds.used faults) :=
    finishNumber_within h hf _
  simp only [finishLegacyOctal]
  split
  · exact ⟨hl.1, within_append.mpr ⟨hl.2, by simp [h]⟩⟩
  · exact hl

theorem readDecimal_within (h : pos ≤ n) : Within n (readDecimal cs pos) := by
  have hseps := separatorFaults_within h
  simp only [readDecimal]
  split
  · simp [hseps]
  · split
    · split
      · exact finishLegacyOctal_within h (hseps _) _
      · exact readFraction_within h (by simp [hseps, h]) _
    · exact readFraction_within h (hseps _) _

theorem readNumber_within (h : pos ≤ n) : Within n (readNumber cs pos) := by
  unfold readNumber
  split
  · exact readFraction_within h within_nil _
  all_goals first | exact readBaseNumber_within h _ _ | exact readDecimal_within h

/-! ## Words -/

instance : Positioned WordChars := ⟨fun n w => Within n w.broken ∧ Within n w.faults⟩

theorem readWordChars_within (h : pos ≤ n) {w : WordChars} (hw : Within n w) :
    Within n (readWordChars fuel cs pos w) := by
  induction fuel generalizing cs pos w with
  | zero => exact hw
  | succ fuel ih =>
    unfold readWordChars
    split
    · simp only
      split
      · exact ⟨within_some.mpr h, hw.2⟩
      · refine ih (sub_within h _) ⟨hw.1, ?_⟩
        dsimp only
        split
        · exact hw.2
        · exact within_cons.mpr ⟨h, hw.2⟩
    · exact ⟨within_some.mpr h, hw.2⟩
    · split
      · exact ih (sub_within h _) hw
      · exact hw
    · exact hw

theorem wordChars_within (h : pos ≤ n) : Within n (wordChars cs pos) :=
  readWordChars_within h ⟨within_none, within_nil⟩

theorem WordChars.kind_within (h : pos ≤ n) {w : WordChars} (hw : Within n w)
    (atStart startsEscaped : Bool) : Within n (w.kind atStart startsEscaped pos) := by
  have hreserved (b : Bool) {k : Kind} (hk : Within n k) :
      Within n (if b then .broken ⟨pos, .escapedReservedWord w.text⟩ else k) := by
    cases b
    · exact hk
    · simp [h]
  unfold WordChars.kind
  split
  · rename_i fault hbroken
    simpa using hw.1 fault hbroken
  · split
    · simp
    · split
      · exact hreserved _ (by simp)
      · split
        · simp
        · exact hreserved _ (by simp)

theorem readWord_within (h : pos ≤ n) (atStart : Bool) : Within n (readWord atStart cs pos) := by
  have hw : Within n (wordChars cs pos) := wordChars_within h
  exact ⟨WordChars.kind_within h hw _ _, within_reverse.mpr hw.2⟩

/-! ## Strings, templates and regular expressions -/

theorem unclosedString_within (h : start ≤ n) (hf : Within n faults) (codes : List Nat) :
    Within n (unclosedString start pos codes faults) := by
  simpa [unclosedString] using ⟨hf, h⟩

theorem readStringRest_within (quote : Char) (hstart : start ≤ n) (h : pos ≤ n)
    (hf : Within n faults) (codes : List Nat) (verbatim : Bool) :
    Within n (readStringRest quote start fuel cs pos codes verbatim faults) := by
  induction fuel generalizing cs pos codes verbatim faults with
  | zero => exact unclosedString_within hstart hf _
  | succ fuel ih =>
    have hcons (cause : Cause) : Within n (⟨pos, cause⟩ :: faults) := within_cons.mpr ⟨h, hf⟩
    unfold readStringRest
    split
    · exact unclosedString_within hstart hf _
    · simp only
      split
      · grind
      · exact ih (sub_within (sub_within h _) _) (by grind) _ _
    · split
      · simp [hf]
      · split
        · exact unclosedString_within hstart hf _
        · exact ih (sub_within h _) hf _ _

theorem readString_within (h : pos ≤ n) (quote : Char) : Within n (readString quote cs pos) :=
  readStringRest_within quote h (sub_within h _) within_nil _ _

theorem readTemplateRest_within (opened : Bool) (hstart : start ≤ n) (h : pos ≤ n)
    {bad : Option Fault} (hbad : Within n bad) :
    Within n (readTemplateRest opened start fuel cs pos bad) := by
  induction fuel generalizing cs pos bad with
  | zero => simp [readTemplateRest, hstart]
  | succ fuel ih =>
    have hkind : Within n bad.toList := by cases bad <;> simp_all
    unfold readTemplateRest
    split
    · simp [hstart]
    · cases opened <;> simpa using hkind
    · cases opened <;> simpa using hkind
    · refine ih (sub_within (sub_within h _) _) ?_
      cases bad with
      | some fault => exact hbad
      | none => grind
    · exact ih (sub_within h _) hbad

theorem readTemplate_within (h : pos ≤ n) (opened : Bool) :
    Within n (readTemplate opened cs pos) :=
  readTemplateRest_within opened h (sub_within h _) within_none

theorem readRegExp_within (h : pos ≤ n) : Within n (readRegExp cs pos) := by
  unfold readRegExp
  split
  · simp [h]
  · rename_i used _
    have hw : Within n (wordChars (cs.drop used) (pos - used)) :=
      wordChars_within (sub_within h _)
    simp only
    split
    · simp
    · split
      · simp
      · split
        · rename_i fault hbroken
          exact ⟨by simpa using hw.1 fault hbroken, within_reverse.mpr hw.2⟩
        · refine ⟨by simp, ?_⟩
          have := hw.2
          simp only [within_append, within_reverse, this, true_and]
          constructor
          · split <;> simp [h]
          · intro fault hfault
            obtain ⟨c, -, rfl⟩ := List.mem_map.mp hfault
            exact h

/-! ## Tokens -/

theorem readLexeme_within (h : pos ≤ n) (atStart : Bool) :
    Within n (readLexeme atStart cs pos) := by
  have hpunct (p : Punct) (k : Nat) : Within n (⟨.punct p, k, []⟩ : Lexeme) := by simp
  unfold readLexeme
  split
  · simp
  · exact readTemplate_within h _
  · split <;> exact hpunct _ _
  · split
    · exact readNumber_within h
    · split
      · exact hpunct _ _
      · simp [h]
  · split
    · exact readString_within h _
    · split
      · exact readNumber_within h
      · split
        · exact readWord_within h _
        · split
          · exact hpunct _ _
          · simp [h]

/-- At the end of a text there is no token. -/
theorem readLexeme_ne_nil {atStart : Bool} (h : (readLexeme atStart cs pos).kind.isToken = true) :
    cs ≠ [] := by
  rintro rfl
  simp [readLexeme, Kind.isToken] at h

theorem readTemplate_nil (opened : Bool) (pos : Pos) :
    (readTemplate opened [] pos).kind.isToken = false := by
  unfold readTemplate
  cases pos <;> rfl

theorem readRegExp_nil (pos : Pos) : (readRegExp [] pos).kind.isToken = false := rfl

theorem skipGap_within (h : pos ≤ n) (hlength : pos = cs.length) (gap : Gap) (sawBreak : Bool)
    (hf : Within n faults) :
    Within n (skipGap gap sawBreak faults cs pos).cursor ∧
      Within n (skipGap gap sawBreak faults cs pos).faults ∧
      (skipGap gap sawBreak faults cs pos).cursor.pos ≤ pos := by
  fun_induction skipGap gap sawBreak faults cs pos <;> grind

theorem Lexeme.toLexed_within {l : Lexeme} (hl : Within n l) {source : Cursor}
    (hs : Within n source) (ht : l.kind.isToken = true → source.rest ≠ []) (afterBreak : Bool)
    (hf : Within n faults) : Within n (l.toLexed source afterBreak faults) := by
  have hpos : source.pos - l.used ≤ n := Nat.le_trans (Nat.sub_le _ _) (Within.cursor_pos hs)
  have hlength := Within.cursor_length hs
  have hnext : Within n (source.skip l.used) :=
    within_cursor.mpr ⟨hpos, by rw [hlength, List.length_drop]⟩
  have htoken : l.kind.isToken = true → 0 < source.pos :=
    fun h => hlength ▸ List.length_pos_of_ne_nil (ht h)
  exact ⟨⟨hl.1, hs, hpos, htoken⟩, hnext, within_append.mpr ⟨hf, hl.2⟩, Nat.sub_le _ _⟩

theorem Cursor.skipTrivia_within {c : Cursor} (h : Within n c) (atStart : Bool) :
    Within n (c.skipTrivia atStart).cursor ∧ Within n (c.skipTrivia atStart).faults ∧
      (c.skipTrivia atStart).cursor.pos ≤ c.pos :=
  skipGap_within (Within.cursor_pos h) (Within.cursor_length h) .blank atStart within_nil

@[grind .] theorem Cursor.next_within {c : Cursor} (h : Within n c) (atStart : Bool) :
    Within n (c.next atStart) := by
  obtain ⟨hc, hf, -⟩ := Cursor.skipTrivia_within h atStart
  exact Lexeme.toLexed_within (readLexeme_within (Within.cursor_pos hc) _) hc readLexeme_ne_nil _
    (within_reverse.mpr hf)

theorem Cursor.next_start_le {c : Cursor} (h : Within n c) (atStart : Bool) :
    (c.next atStart).token.start ≤ c.pos :=
  (Cursor.skipTrivia_within h atStart).2.2

theorem Cursor.skipHashbang_within {c : Cursor} (h : Within n c) : Within n c.skipHashbang := by
  have hskip (k : Nat) : Within n (c.skip k) := by
    refine within_cursor.mpr ⟨Nat.le_trans (Nat.sub_le _ _) (Within.cursor_pos h), ?_⟩
    rw [Within.cursor_length h, List.length_drop]
  unfold Cursor.skipHashbang
  split
  · exact hskip _
  · exact h

end Census.Script
