import Mathlib
import Census.Proofs.Script.Lexeme
/-!
The steps from token to token keep to the characters that are left, and none takes a token at the end of the
text. Positions are natural numbers, so `grind` goes without its solver for other orders, which would try
truth values too.
-/

set_option mvcgen.warning false

namespace Census.Script

open Census.Text (Pos)
open Std.Do

variable {α σ : Type} [Positioned α] [Positioned σ] {n k pos start : Pos}

namespace Parse

/-! ## Looking and moving on -/

theorem inspect_keeps {f : State → α} (hf : ∀ s, s.AllWithin n k → Within n (f s)) :
    Keeps n k (do return f (← get) : Parse α) :=
  keeps_iff.mpr fun s hs => ⟨hf s hs, hs⟩

theorem modify_keeps {f : State → State} (hf : ∀ s, s.AllWithin n k → (f s).AllWithin n k) :
    Keeps n k (modify f : Parse Unit) :=
  keeps_iff.mpr fun s hs => ⟨trivial, hf s hs⟩

/-- Where a token stands, there is something left to be read. -/
theorem pos_of_token {s : State} (h : s.AllWithin n k)
    (ht : s.token.kind.isToken = true) : 0 < k :=
  Nat.lt_of_lt_of_le (Within.start_pos h.token ht) h.start_le

/-- A test of the current token that does not hold at the end of the text. -/
theorem inspect_tests {f : Kind → Bool} (hf : ∀ kind, f kind = true → kind.isToken = true) :
    Tests n k (do return f (← kind) : Parse Bool) :=
  fun s hs => ⟨trivial, fun h => pos_of_token hs (hf s.token.kind h), hs⟩

@[spec] theorem token_keeps : Keeps n k token := inspect_keeps fun _ hs => hs.token

@[spec] theorem kind_keeps : Keeps n k kind := inspect_keeps fun _ hs => Within.token_kind hs.token

@[spec] theorem here_keeps : Keeps n k here := inspect_keeps fun _ hs => Within.token_start hs.token

@[spec] theorem afterBreak_keeps : Keeps n k afterBreak := inspect_keeps fun _ _ => trivial

@[spec] theorem previous_keeps : Keeps n k previous := inspect_keeps fun _ hs => hs.previous

@[spec] theorem spanFrom_keeps (h : start ≤ n) :
    KeepsAnd n k (fun span => span.start = start) (spanFrom start) :=
  fun _ hs => ⟨h, rfl, hs⟩

/-- What a state becomes when the next token has been read. -/
theorem State.allWithin_advance {s : State} {next : Lexed} (hs : s.AllWithin n k)
    (h : Within n next) (hle : next.token.start ≤ s.token.start) {faults : List Fault}
    (hf : Within n faults) :
    State.AllWithin n k { s with token := next.token, cursor := next.cursor, ahead := none
                                 previous := s.token, faults := faults } :=
  { token := Within.lexed_token h
    cursor := Within.lexed_cursor h
    ahead := within_none
    previous := hs.token
    faults := hf
    postponed := hs.postponed
    start_le := Nat.le_trans hle hs.start_le
    cursor_le := Within.cursor_le_start h
    ahead_le := fun _ hnone => nomatch hnone }

@[spec] theorem bump_keeps : Keeps n k bump := by
  refine modify_keeps fun s hs => ?_
  split
  · rename_i next hnext
    exact State.allWithin_advance hs (hs.ahead next hnext) (hs.ahead_le next hnext) hs.faults
  · rename_i hnone
    have hnext : Within n (s.cursor.next false) := Cursor.next_within hs.cursor false
    have hle := Nat.le_trans (Cursor.next_start_le hs.cursor false) hs.cursor_le
    have hstate := State.allWithin_advance hs hnext hle
      (within_append.mpr ⟨within_reverse.mpr (Within.lexed_faults hnext), hs.faults⟩)
    rw [← hnone] at hstate
    exact hstate

@[spec] theorem peek_keeps : Keeps n k peek := by
  mvcgen [peek]
  · rename_i s hs next hahead
    exact ⟨Within.lexed_token (hs.ahead next hahead), hs⟩
  · rename_i s hs _ _
    have hnext : Within n (s.cursor.next false) := Cursor.next_within hs.cursor false
    have hle := Nat.le_trans (Cursor.next_start_le hs.cursor false) hs.cursor_le
    have hfaults : Within n ((s.cursor.next false).faults.reverse ++ s.faults) :=
      within_append.mpr ⟨within_reverse.mpr (Within.lexed_faults hnext), hs.faults⟩
    refine ⟨Within.lexed_token hnext, ?_⟩
    exact { hs with
      ahead := within_some.mpr hnext
      faults := hfaults
      ahead_le := fun next h => Option.some.inj h ▸ hle }

@[spec] theorem reread_keeps {read : List Char → Pos → Lexeme}
    (hread : ∀ cs pos, pos ≤ n → Within n (read cs pos))
    (hend : ∀ pos, (read [] pos).kind.isToken = false) : Keeps n k (reread read) := by
  refine modify_keeps fun s hs => ?_
  have hsource : Within n s.token.source := Within.token_source hs.token
  have htoken : (read s.token.source.rest s.token.source.pos).kind.isToken = true →
      s.token.source.rest ≠ [] := by
    intro h hnil
    rw [hnil, hend] at h
    cases h
  have hnext := Lexeme.toLexed_within (hread s.token.source.rest _ (Within.cursor_pos hsource))
    hsource htoken s.token.afterBreak within_nil
  exact
    { token := Within.lexed_token hnext
      cursor := Within.lexed_cursor hnext
      ahead := within_none
      previous := hs.previous
      faults := within_append.mpr ⟨within_reverse.mpr (Within.lexed_faults hnext), hs.faults⟩
      postponed := hs.postponed
      start_le := hs.start_le
      cursor_le := Within.cursor_le_start hnext
      ahead_le := fun _ hnone => nomatch hnone }

/-! ## Faults -/

@[spec] theorem addFault_keeps (h : pos ≤ n) (cause : Cause) : Keeps n k (addFault pos cause) :=
  modify_keeps fun _ hs => { hs with faults := within_cons.mpr ⟨h, hs.faults⟩ }

@[spec] theorem report_keeps (h : pos ≤ n) (cause : Cause) : Keeps n k (report pos cause) := by
  mvcgen [report]
  all_goals grind -linarith

@[spec] theorem failAt_fails {β : Type} (h : pos ≤ n) (cause : Cause) :
    Fails n k (failAt pos cause : Parse β) := by
  mvcgen [failAt]
  all_goals grind -linarith

@[spec] theorem fail_fails {β : Type} (cause : Cause) : Fails n k (fail cause : Parse β) := by
  mvcgen [fail]
  all_goals grind -linarith

@[spec] theorem unexpected_fails {β : Type} (choices : String) :
    Fails n k (unexpected choices : Parse β) := by
  mvcgen [unexpected]
  all_goals grind -linarith

@[spec] theorem reportHere_keeps (cause : Cause) : Keeps n k (reportHere cause) := by
  mvcgen [reportHere]
  all_goals grind -linarith

@[spec] theorem failBroken_fails {β : Type} {fault : Fault} (h : Within n fault) :
    Fails n k (failBroken fault : Parse β) := by
  mvcgen [failBroken]
  all_goals grind -linarith

@[spec] theorem attempt_keeps {p : Parse α} (hp : Keeps n k p) : Keeps n k (attempt p) := by
  mvcgen [attempt, hp]
  · grind -linarith
  · rename_i hfault
    exact ⟨within_error.mpr hfault.1, hfault.2⟩

theorem keeps_of_fails {p : Parse α} (h : Fails n k p) : Keeps n k p := by
  mvcgen [h]
  all_goals grind -linarith

/-! ## Tests and expectations -/

@[spec] theorem isPunct_tests (p : Punct) : Tests n k (isPunct p) :=
  inspect_tests fun kind h => by
    rw [eq_of_beq h]
    rfl

@[spec] theorem isKeyword_tests (w : Keyword) : Tests n k (isKeyword w) :=
  inspect_tests fun kind h => by
    rw [eq_of_beq h]
    rfl

@[spec] theorem isContextual_tests (w : Contextual) : Tests n k (isContextual w) :=
  inspect_tests fun kind h => by
    cases kind with
    | contextual => rfl
    | _ => cases h

@[spec] theorem isEof_keeps : Keeps n k isEof := by
  mvcgen [isEof]
  all_goals grind -linarith

@[spec] theorem eatIf_tests {test : Parse Bool} (ht : Tests n k test) : Tests n k (eatIf test) := by
  mvcgen [eatIf, ht]
  all_goals grind -linarith

@[spec] theorem eat_tests (p : Punct) : Tests n k (eat p) := eatIf_tests (isPunct_tests p)

@[spec] theorem eatKeyword_tests (w : Keyword) : Tests n k (eatKeyword w) :=
  eatIf_tests (isKeyword_tests w)

@[spec] theorem eatContextual_tests (w : Contextual) : Tests n k (eatContextual w) :=
  eatIf_tests (isContextual_tests w)

@[spec] theorem expectIf_takes {test : Parse Bool} (ht : Tests n k test) (what : String) :
    Takes n k (expectIf test what) := by
  mvcgen [expectIf, ht]
  all_goals grind -linarith

@[spec] theorem expect_takes (p : Punct) : Takes n k (expect p) :=
  expectIf_takes (isPunct_tests p) _

@[spec] theorem expectKeyword_takes (w : Keyword) : Takes n k (expectKeyword w) :=
  expectIf_takes (isKeyword_tests w) _

@[spec] theorem expectContextual_takes (w : Contextual) : Takes n k (expectContextual w) :=
  expectIf_takes (isContextual_tests w) _

@[spec] theorem atStatementEnd_keeps : Keeps n k atStatementEnd := by
  mvcgen [atStatementEnd]
  all_goals grind -linarith

@[spec] theorem eatStatementEnd_keeps : Keeps n k eatStatementEnd := by
  mvcgen [eatStatementEnd]
  all_goals grind -linarith

@[spec] theorem expectStatementEnd_keeps : Keeps n k expectStatementEnd := by
  mvcgen [expectStatementEnd]
  all_goals grind -linarith

/-! ## Loops -/

/-- A loop keeps to the characters that are left if each of its steps does, from whatever is within
them. -/
theorem repeatFrom_keeps {step : σ → Parse (σ ⊕ α)} (hstep : ∀ s, Within n s → Keeps n k (step s))
    (fuel : Nat) {init : σ} (h : Within n init) : Keeps n k (repeatFrom step fuel init) := by
  induction fuel generalizing init with
  | zero => exact keeps_of_fails (fail_fails _)
  | succ fuel ih =>
    have hfirst := hstep init h
    unfold repeatFrom
    mvcgen [hfirst, ih]
    all_goals grind -linarith

@[spec] theorem repeating_keeps {init : σ} (h : Within n init) {step : σ → Parse (σ ⊕ α)}
    (hstep : ∀ s, Within n s → Keeps n k (step s)) : Keeps n k (repeating init step) := by
  have hloop := fun fuel => repeatFrom_keeps hstep fuel h
  mvcgen [repeating, hloop]
  all_goals grind -linarith

@[spec] theorem collectUntil_keeps {done : Parse Bool} (hd : Keeps n k done) {item : Parse Node}
    (hi : Keeps n k item) : Keeps n k (collectUntil done item) := by
  mvcgen [collectUntil]
  · grind -linarith
  · rename_i acc hacc
    mvcgen [hd, hi]
    all_goals grind -linarith

@[spec] theorem forM_keeps {τ : Type} {f : τ → Parse Unit} {as : List τ}
    (hf : ∀ a ∈ as, Keeps n k (f a)) : Keeps n k (as.forM f) := by
  induction as with
  | nil => mvcgen [List.forM]
  | cons a as ih =>
    have hfirst := hf a (by simp)
    have hrest : Keeps n k (forM as f) := ih fun b hb => hf b (by simp [hb])
    rw [List.forM_eq_forM, List.forM_cons]
    mvcgen [hfirst, hrest]
    grind -linarith

end Parse

end Census.Script
