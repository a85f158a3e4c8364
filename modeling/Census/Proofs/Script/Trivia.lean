import Mathlib.Data.List.Infix
import Census.Script.Parse
/-!
Blanks, line ends and comments in front of a script. They are passed over before the first token, and as the
start of a text counts as the start of a line, nothing of them is left in the state that reading starts
from. Places count what is still to come, so the script is then read as it is without them.
-/

namespace Census.Script

open Census.Text (Pos isLineTerminator isScriptBlank)

/-- White space of the language: tab, vertical tab, form feed, the space separators of Unicode and the
byte order mark. -/
def whiteSpace : List Char :=
  ['\t', '\x0b', '\x0c', ' ', '\xa0', '\u1680', '\u2000', '\u2001', '\u2002', '\u2003', '\u2004',
    '\u2005', '\u2006', '\u2007', '\u2008', '\u2009', '\u200a', '\u202f', '\u205f', '\u3000', '\ufeff']

def lineTerminators : List Char := ['\n', '\r', '\u2028', '\u2029']

/-- Texts of white space, line ends and comments that are complete: a comment to the end of the line has its
line end, and a comment in stars has the stars that close it. -/
inductive IsTrivia : List Char → Prop where
  | nil : IsTrivia []
  | blank {c : Char} {t : List Char} : c ∈ whiteSpace → IsTrivia t → IsTrivia (c :: t)
  | lineEnd {c : Char} {t : List Char} : c ∈ lineTerminators → IsTrivia t → IsTrivia (c :: t)
  | lineComment {body t : List Char} {c : Char} : (∀ d ∈ body, d ∉ lineTerminators) →
      c ∈ lineTerminators → IsTrivia t → IsTrivia ('/' :: '/' :: (body ++ c :: t))
  | blockComment {body t : List Char} : ¬ ['*', '/'] <:+: body → IsTrivia t →
      IsTrivia ('/' :: '*' :: (body ++ '*' :: '/' :: t))

variable {t s body : List Char} {c : Char} {faults : List Fault}

/-! ## What trivia are made of -/

/-- No character of white space opens a comment or a mark for one. -/
theorem isScriptBlank_of_mem : ∀ c ∈ whiteSpace,
    isScriptBlank c = true ∧ isLineTerminator c = false ∧ c ≠ '/' ∧ c ≠ '<' ∧ c ≠ '-' ∧ c ≠ '#' := by
  simp [whiteSpace, isScriptBlank, isLineTerminator]

theorem isLineTerminator_of_mem : ∀ c ∈ lineTerminators,
    isLineTerminator c = true ∧ c ≠ '/' ∧ c ≠ '<' ∧ c ≠ '-' ∧ c ≠ '#' := by
  simp [lineTerminators, isLineTerminator]

theorem isLineTerminator_eq_false (h : c ∉ lineTerminators) : isLineTerminator c = false := by
  simpa [lineTerminators, isLineTerminator, and_assoc] using h

/-- Trivia do not start like the line that only the start of a text may have. -/
theorem IsTrivia.head?_ne_hash (ht : IsTrivia t) : t.head? ≠ some '#' := by
  cases ht with
  | nil => simp
  | blank hc _ => simpa using (isScriptBlank_of_mem _ hc).2.2.2.2.2
  | lineEnd hc _ => simpa using (isLineTerminator_of_mem _ hc).2.2.2.2
  | lineComment _ _ _ => simp
  | blockComment _ _ => simp

/-! ## Passing over trivia -/

/-- A character that opens no comment is a line end, a blank or the first one of a token. -/
theorem skipGap_plain (hslash : c ≠ '/') (hless : c ≠ '<') (hminus : c ≠ '-') (sawBreak : Bool)
    (pos : Pos) :
    skipGap .blank sawBreak faults (c :: s) pos =
      if isLineTerminator c then skipGap .blank true faults s (pos - 1)
      else if isScriptBlank c then skipGap .blank sawBreak faults s (pos - 1)
      else ⟨⟨c :: s, pos⟩, sawBreak, faults⟩ := by
  rw [skipGap]
  · exact fun _ hc => absurd hc hslash
  · exact fun _ hc => absurd hc hslash
  · exact fun _ hc => absurd hc hless
  · exact fun _ hc => absurd hc hminus

theorem skipGap_whiteSpace (h : c ∈ whiteSpace) (sawBreak : Bool) (pos : Pos) :
    skipGap .blank sawBreak faults (c :: s) (pos + 1) = skipGap .blank sawBreak faults s pos := by
  obtain ⟨hblank, hend, hslash, hless, hminus, -⟩ := isScriptBlank_of_mem c h
  rw [skipGap_plain hslash hless hminus, if_neg (by simp [hend]), if_pos hblank]
  rfl

theorem skipGap_lineEnd (h : c ∈ lineTerminators) (sawBreak : Bool) (pos : Pos) :
    skipGap .blank sawBreak faults (c :: s) (pos + 1) = skipGap .blank true faults s pos := by
  obtain ⟨hend, hslash, hless, hminus, -⟩ := isLineTerminator_of_mem c h
  rw [skipGap_plain hslash hless hminus, if_pos hend]
  rfl

theorem skipGap_line (hbody : ∀ d ∈ body, d ∉ lineTerminators) (h : c ∈ lineTerminators)
    (sawBreak : Bool) (pos : Pos) :
    skipGap .line sawBreak faults (body ++ c :: s) (pos + 1 + body.length) =
      skipGap .blank true faults s pos := by
  induction body with
  | nil =>
    rw [List.nil_append, skipGap, if_pos (isLineTerminator_of_mem c h).1]
    rfl
  | cons d ds ih =>
    have hd : isLineTerminator d = false := isLineTerminator_eq_false (hbody d (by simp))
    rw [List.cons_append, skipGap, if_neg (by simp [hd])]
    exact ih fun e he => hbody e (by simp [he])

theorem skipGap_block (hbody : ¬ ['*', '/'] <:+: body) (pos : Pos) :
    skipGap .block true faults (body ++ '*' :: '/' :: s) (pos + 2 + body.length) =
      skipGap .blank true faults s pos := by
  induction body with
  | nil => simp [skipGap]
  | cons d ds ih =>
    have hrest : ¬ ['*', '/'] <:+: ds := fun hinfix => hbody (List.infix_cons hinfix)
    -- the comment is not closed here: a star before a slash would lie within its text
    have hopen : ∀ rest, d = '*' → ds ++ '*' :: '/' :: s = '/' :: rest → False := by
      rintro rest rfl hslash
      cases ds with
      | nil => simp at hslash
      | cons e es =>
        obtain ⟨rfl, -⟩ := List.cons.inj hslash
        exact hbody ⟨[], es, rfl⟩
    rw [List.cons_append, skipGap]
    · exact ih hrest
    · exact hopen

/-- Complete trivia at the start of a line leave no trace. -/
theorem skipGap_trivia (ht : IsTrivia t) (s : List Char) (pos : Nat) :
    skipGap .blank true faults (t ++ s) (pos + t.length) = skipGap .blank true faults s pos := by
  induction ht with
  | nil => rfl
  | blank hc _ ih => exact (skipGap_whiteSpace hc true _).trans ih
  | lineEnd hc _ ih => exact (skipGap_lineEnd hc true _).trans ih
  | @lineComment body t c hbody hc _ ih =>
    have hpos : pos + ('/' :: '/' :: (body ++ c :: t)).length - 2 =
        pos + t.length + 1 + body.length := by
      simp
      omega
    rw [List.cons_append, List.cons_append, List.append_assoc, List.cons_append, skipGap, hpos,
      skipGap_line hbody hc, ih]
  | @blockComment body t hbody _ ih =>
    have hpos : pos + ('/' :: '*' :: (body ++ '*' :: '/' :: t)).length - 2 =
        pos + t.length + 2 + body.length := by
      simp
      omega
    rw [List.cons_append, List.cons_append, List.append_assoc, List.cons_append, List.cons_append,
      skipGap, hpos, skipGap_block hbody, ih]

/-! ## Reading on after trivia -/

theorem withoutMark_of_head? (h : s.head? ≠ some '\ufeff') : withoutMark s = s := by
  unfold withoutMark
  split
  · exact absurd rfl h
  · rfl

theorem skipHashbang_ofText (h : ¬ ['#', '!'] <+: s) :
    (Cursor.ofText s).skipHashbang = Cursor.ofText s := by
  unfold Cursor.skipHashbang
  split
  · rename_i rest hs
    exact absurd ⟨rest, hs.symm⟩ h
  · rfl

/-- The first token of a text is the same with trivia in front, and it stands at the same place. -/
theorem start_append (ht : IsTrivia t) (s : List Char) :
    State.start (Cursor.ofText (t ++ s)) = State.start (Cursor.ofText s) := by
  have hgap : (Cursor.ofText (t ++ s)).skipTrivia true = (Cursor.ofText s).skipTrivia true := by
    have hlength : (t ++ s).length = s.length + t.length := by
      rw [List.length_append, Nat.add_comm]
    unfold Cursor.skipTrivia Cursor.ofText
    rw [hlength]
    exact skipGap_trivia ht s s.length
  have hnext : (Cursor.ofText (t ++ s)).next true = (Cursor.ofText s).next true := by
    unfold Cursor.next
    rw [hgap]
  unfold State.start
  rw [hnext]

/-- A script is read as the same module, or stopped by the same fault, with trivia in front. -/
theorem Module.read_append (ht : IsTrivia t) (htm : t.head? ≠ some '\ufeff')
    (hsm : s.head? ≠ some '\ufeff') (hs : ¬ ['#', '!'] <+: s) :
    Module.read (t ++ s) = Module.read s := by
  have hmark : (t ++ s).head? ≠ some '\ufeff' := by
    cases t with
    | nil => exact hsm
    | cons c cs => exact htm
  have hbang : ¬ ['#', '!'] <+: t ++ s := by
    cases t with
    | nil => exact hs
    | cons c cs =>
      rintro ⟨rest, hrest⟩
      obtain ⟨rfl, -⟩ := List.cons.inj hrest
      exact ht.head?_ne_hash rfl
  unfold Module.read
  rw [withoutMark_of_head? hmark, withoutMark_of_head? hsm, skipHashbang_ofText hbang,
    skipHashbang_ofText hs, start_append ht]

end Census.Script
