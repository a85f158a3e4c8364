import Census.Script.Parse
import Census.Proofs.Script.Grammar.Module
/-!
Where a module that has been read can point to: no node of it and no fault starts before the text, and no
function at its end.
-/

namespace Census.Script

open Census.Text (Pos)
open Parse

variable {n : Pos}

/-- The grammar keeps to the characters that are left on every level: the lowest level stops at once, and
each other level goes through the one below it. -/
theorem Grammar.level_keeps (depth : Nat) : (Grammar.level depth).Keeps n := by
  induction depth with
  | zero =>
    constructor
    all_goals
      intros
      exact keeps_of_fails (fail_fails _)
  | succ depth ih =>
    exact
      { assignment := assignmentExpression_keeps ih
        unary := unaryExpression_keeps ih
        binaryTail := fun ctx _ h level => binaryTail_keeps ih ctx h level
        leftHand := leftHand_keeps ih
        construction := construction_keeps ih
        pattern := bindingPattern_keeps ih
        asPattern := fun ctx use _ h => expressionAsPattern_keeps ih ctx use h
        statement := statementNode_keeps ih }

theorem State.start_within {c : Cursor} (h : Within n c) : (State.start c).AllWithin n n := by
  have hfirst : Within n (c.next true) := Cursor.next_within h true
  have htoken : Within n { (c.next true).token with afterBreak := false } :=
    Within.lexed_token hfirst
  have hfaults : Within n (c.next true).faults := Within.lexed_faults hfirst
  exact
    { token := htoken
      cursor := Within.lexed_cursor hfirst
      ahead := within_none
      previous := htoken
      faults := within_reverse.mpr fun fault hf => hfaults fault (List.mem_filter.mp hf).1
      postponed := fun fault hf => hfaults fault (List.mem_filter.mp hf).1
      start_le := Within.token_start htoken
      cursor_le := Within.cursor_le_start hfirst
      ahead_le := fun _ hnone => nomatch hnone }

theorem readItems_within {s : State} (h : s.AllWithin n n) : Within n (readItems s) := by
  have hrun := keeps_iff.mp (moduleItems_keeps (Grammar.level_keeps (8 * s.token.start + 8)) {}) s h
  unfold readItems
  split
  · rename_i fault final hfailed
    rw [hfailed] at hrun
    exact within_error.mpr hrun.1
  · rename_i items final hread
    rw [hread] at hrun
    obtain ⟨hitems, hfinal⟩ := hrun
    split
    · rename_i fault hfound
      have hfault : fault ∈ final.faults ∨ fault ∈ final.postponed := by
        rcases Option.or_eq_some_iff.mp hfound with hlast | ⟨-, hfirst⟩
        · exact .inl (List.mem_of_getLast? hlast)
        · exact .inr (List.mem_of_head? hfirst)
      refine within_error.mpr ?_
      rcases hfault with hf | hp
      · exact hfinal.faults fault hf
      · exact hfinal.postponed fault hp
    · exact within_ok.mpr hitems

instance : Positioned Module := ⟨fun n m => Within n m.items⟩

theorem withoutMark_length_le (text : List Char) : (withoutMark text).length ≤ text.length := by
  unfold withoutMark
  split <;> simp

/-- No place in a module or in the fault that keeps a text from being one lies before the text. -/
theorem Module.read_within (text : List Char) : Within text.length (Module.read text) := by
  have hstart : Within text.length (Cursor.ofText (withoutMark text)).skipHashbang :=
    Cursor.skipHashbang_within (within_cursor.mpr ⟨withoutMark_length_le text, rfl⟩)
  have hitems := readItems_within (State.start_within hstart)
  unfold Module.read
  cases hread : readItems (.start (Cursor.ofText (withoutMark text)).skipHashbang) with
  | error fault =>
    rw [hread] at hitems
    exact within_error.mpr (within_error.mp hitems)
  | ok items =>
    rw [hread] at hitems
    have hlist : Within text.length items := within_ok.mp hitems
    have hmodule : Within text.length (Module.mk items) := hlist
    exact within_ok.mpr hmodule

end Census.Script
