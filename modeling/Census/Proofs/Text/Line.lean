import Mathlib.Data.List.Basic
import Census.Text.Line
/-!
Line breaks of a text, counted character by character. Those of two texts that are joined are those of
both, unless the two join in the middle of a `\r\n`.
-/

namespace Census.Text

variable {cs front text : List Char} {c : Char} {n k : Nat}

/-- The line breaks of a text: each `\r\n`, and each `\n` and `\r` by itself. -/
def lineBreaks : List Char → Nat
  | '\r' :: '\n' :: cs => lineBreaks cs + 1
  | '\r' :: cs => lineBreaks cs + 1
  | '\n' :: cs => lineBreaks cs + 1
  | _ :: cs => lineBreaks cs
  | [] => 0

/-- The line breaks that end within the first `n` characters of a text. -/
def breaks : Nat → List Char → Nat
  | n + 1, c :: cs => (endsLine c cs).toNat + breaks n cs
  | _, _ => 0

/-- Two texts join in the middle of a `\r\n`. -/
def SplitsBreak (front text : List Char) : Prop :=
  front.getLast? = some '\r' ∧ text.head? = some '\n'

instance : Decidable (SplitsBreak front text) := inferInstanceAs (Decidable (_ ∧ _))

/-! ## Counting character by character -/

@[simp] theorem breaks_zero : breaks 0 cs = 0 := by simp [breaks]

@[simp] theorem breaks_nil : breaks n [] = 0 := by simp [breaks]

theorem breaks_succ_cons : breaks (n + 1) (c :: cs) = (endsLine c cs).toNat + breaks n cs := rfl

theorem breaks_le (n : Nat) (cs : List Char) : breaks n cs ≤ n := by
  induction n generalizing cs with
  | zero => simp
  | succ n ih =>
    cases cs with
    | nil => simp
    | cons c cs =>
      have hrest := ih cs
      have hfirst := Bool.toNat_le (endsLine c cs)
      rw [breaks_succ_cons]
      omega

/-- The breaks among the first characters are those of the text in front and those among the first
characters after it. -/
theorem breaks_append (h : ¬ SplitsBreak front text) :
    breaks (front.length + n) (front ++ text) = breaks front.length front + breaks n text := by
  induction front with
  | nil => simp
  | cons c cs ih =>
    have hrest : ¬ SplitsBreak cs text := by
      rintro ⟨hlast, hhead⟩
      exact h ⟨by simp [List.getLast?_cons, hlast], hhead⟩
    have hends : endsLine c (cs ++ text) = endsLine c cs := by
      cases cs with
      | cons d ds => rfl
      | nil =>
        -- only here can the character after `c` be the first one of the second text
        by_cases hc : c = '\r'
        · have hhead : text.head? ≠ some '\n' := fun hhead => h ⟨by simp [hc], hhead⟩
          have hdiffers : (text.head? != some '\n') = true := by simpa using hhead
          rw [List.nil_append, endsLine, hdiffers]
          rfl
        · have hother : (c == '\r') = false := by simpa using hc
          rw [endsLine, endsLine, hother]
          rfl
    have hlength : (c :: cs).length + n = cs.length + n + 1 := by simp; omega
    rw [hlength, List.cons_append, List.length_cons, breaks_succ_cons, breaks_succ_cons, ih hrest,
      hends]
    omega

theorem breaks_length (cs : List Char) : breaks cs.length cs = lineBreaks cs := by
  fun_induction lineBreaks cs with
  | case1 cs ih =>
    simp only [List.length_cons, breaks_succ_cons, ih]
    simp [endsLine]
    omega
  | case2 cs hnext ih =>
    have hhead : cs.head? ≠ some '\n' := by
      cases cs with
      | nil => simp
      | cons d ds =>
        intro hd
        exact hnext ds (by simpa using hd)
    have hends : endsLine '\r' cs = true := by
      have hdiffers : (cs.head? != some '\n') = true := by simpa using hhead
      rw [endsLine, hdiffers]
      rfl
    rw [List.length_cons, breaks_succ_cons, ih, hends, Bool.toNat_true, Nat.add_comm]
  | case3 cs ih =>
    rw [List.length_cons, breaks_succ_cons, ih]
    exact Nat.add_comm _ _
  | case4 c cs _ hreturn hnew ih =>
    have hends : endsLine c cs = false := by
      rw [endsLine, beq_eq_false_iff_ne.mpr hnew, beq_eq_false_iff_ne.mpr hreturn]
      rfl
    rw [List.length_cons, breaks_succ_cons, ih, hends, Bool.toNat_false, Nat.zero_add]
  | case5 => rfl

/-- More characters do not hold fewer breaks. -/
theorem breaks_mono (h : n ≤ k) (cs : List Char) : breaks n cs ≤ breaks k cs := by
  induction n generalizing k cs with
  | zero => simp
  | succ n ih =>
    obtain ⟨k, rfl⟩ : ∃ m, k = m + 1 := ⟨k - 1, by omega⟩
    cases cs with
    | nil => simp
    | cons c cs =>
      have hrest := ih (Nat.le_of_succ_le_succ h) cs
      rw [breaks_succ_cons, breaks_succ_cons]
      omega

theorem breaks_le_lineBreaks (h : n ≤ cs.length) : breaks n cs ≤ lineBreaks cs :=
  breaks_length cs ▸ breaks_mono h cs

theorem lineBreaks_le (cs : List Char) : lineBreaks cs ≤ cs.length :=
  breaks_length cs ▸ breaks_le cs.length cs

end Census.Text
