import Census.Proofs.Text.LineTable
import Census.Proofs.Text.Lossy
/-!
Lines of bytes. The lines of a text that is read from bytes are what is read from the lines of the bytes,
one by one, and a place in the text is on the line on which its bytes are.
-/

namespace Census.Text

variable {α : Type} {char : α → Char} {as back front : List α} {bs piece rest : List UInt8} {c : Char}
  {cs cs' : List Char}

/-! ## Lines -/

/-- Puts something in front of the first line. -/
def prepend (front : List α) : List (List α) → List (List α)
  | [] => [front]
  | line :: lines => (front ++ line) :: lines

/-- The lines of what stands for characters, each with the break that ends it. -/
def linesBy (char : α → Char) : List α → List (List α)
  | [] => []
  | a :: as =>
    if endsLine (char a) (as.map char) then [a] :: linesBy char as else prepend [a] (linesBy char as)

theorem flatten_prepend (front : List α) (lines : List (List α)) :
    (prepend front lines).flatten = front ++ lines.flatten := by
  cases lines <;> simp [prepend]

theorem flatten_linesBy (char : α → Char) (as : List α) : (linesBy char as).flatten = as := by
  induction as with
  | nil => rfl
  | cons a as ih =>
    rw [linesBy]
    split
    · rw [List.flatten_cons, ih, List.singleton_append]
    · rw [flatten_prepend, ih, List.singleton_append]

theorem ne_nil_of_mem_linesBy : ∀ line ∈ linesBy char as, line ≠ [] := by
  induction as with
  | nil => simp [linesBy]
  | cons a as ih =>
    rw [linesBy]
    split
    · simpa using ih
    · cases hlines : linesBy char as with
      | nil => simp [prepend]
      | cons line lines =>
        rw [hlines] at ih
        simpa [prepend] using fun l hl => ih l (by simp [hl])

/-- A place among lines is within one of them. As many lines are before that one as breaks are before the
place. -/
theorem linesBy_at (char : α → Char) (front : List α) (hback : back ≠ []) :
    ∃ before s t after, linesBy char (front ++ back) = before ++ (s ++ t) :: after ∧
      before.flatten ++ s = front ∧ t ++ after.flatten = back ∧ t ≠ [] ∧
      before.length = breaks front.length ((front ++ back).map char) := by
  induction front with
  | nil =>
    cases hlines : linesBy char back with
    | nil =>
      have hflatten := flatten_linesBy char back
      rw [hlines] at hflatten
      exact absurd hflatten.symm hback
    | cons t after =>
      refine ⟨[], [], t, after, hlines, rfl, ?_, ?_, by simp⟩
      · rw [← flatten_linesBy char back, hlines, List.flatten_cons]
      · exact ne_nil_of_mem_linesBy t (by rw [hlines]; exact List.mem_cons_self)
  | cons a front ih =>
    obtain ⟨before, s, t, after, hlines, hfront, hafter, hne, hcount⟩ := ih
    rw [List.cons_append, linesBy, hlines, List.map_cons, List.length_cons, breaks_succ_cons, ← hcount]
    split
    · rename_i hends
      refine ⟨[a] :: before, s, t, after, rfl, by simp [← hfront], hafter, hne, ?_⟩
      rw [hends, Bool.toNat_true, List.length_cons, Nat.add_comm]
    · rename_i hends
      rw [Bool.eq_false_iff.mpr hends, Bool.toNat_false, Nat.zero_add]
      cases before with
      | nil => exact ⟨[], a :: s, t, after, rfl, by simp [← hfront], hafter, hne, rfl⟩
      | cons line before =>
        exact ⟨(a :: line) :: before, s, t, after, rfl, by simp [← hfront], hafter, hne, rfl⟩

/-! ## Breaks -/

/-- A character that is in some line break. -/
def isBreak (c : Char) : Bool := c == '\n' || c == '\r'

/-- The breaks of the lines, one after another, and nothing for a last line that does not end. -/
def breakTexts (char : α → Char) (as : List α) : List (List Char) :=
  (linesBy char as).map fun line => (line.map char).filter isBreak

theorem endsLine_of_not_isBreak (h : isBreak c = false) (cs : List Char) : endsLine c cs = false := by
  simp only [isBreak, Bool.or_eq_false_iff] at h
  rw [endsLine, h.1, h.2]
  rfl

theorem endsLine_congr (h : cs.head? = some '\n' ↔ cs'.head? = some '\n') (c : Char) :
    endsLine c cs = endsLine c cs' := by
  have hhead : (cs.head? != some '\n') = (cs'.head? != some '\n') := by
    rw [Bool.eq_iff_iff]
    simpa using not_congr h
  rw [endsLine, endsLine, hhead]

theorem linesBy_unbroken (hne : front ≠ []) (h : ∀ a ∈ front, isBreak (char a) = false) (as : List α) :
    linesBy char (front ++ as) = prepend front (linesBy char as) := by
  induction front with
  | nil => exact absurd rfl hne
  | cons a front ih =>
    have hends := endsLine_of_not_isBreak (h a (by simp)) ((front ++ as).map char)
    rw [List.cons_append, linesBy, hends, if_neg Bool.false_ne_true]
    cases front with
    | nil => rfl
    | cons a' front =>
      rw [ih (by simp) fun b hb => h b (by simp [hb])]
      cases linesBy char as <;> rfl

theorem breaks_unbroken (h : ∀ a ∈ front, isBreak (char a) = false) (n : Nat) (as : List α) :
    breaks (front.length + n) ((front ++ as).map char) = breaks n (as.map char) := by
  induction front with
  | nil => simp
  | cons a front ih =>
    have hends := endsLine_of_not_isBreak (h a (by simp)) ((front ++ as).map char)
    have hlength : (a :: front).length + n = front.length + n + 1 := by simp; omega
    rw [hlength, List.cons_append, List.map_cons, breaks_succ_cons, hends,
      ih fun b hb => h b (by simp [hb]), Bool.toNat_false, Nat.zero_add]

/-! ## Lines of bytes -/

theorem isBreak_of_ge {c : Char} (h : 0x80 ≤ c.toNat) : isBreak c = false := by
  rw [isBreak, Bool.or_eq_false_iff, beq_eq_false_iff_ne, beq_eq_false_iff_ne]
  exact ⟨by rintro rfl; exact absurd h (by decide), by rintro rfl; exact absurd h (by decide)⟩

theorem isBreak_byteChar {b : UInt8} (h : ¬ b < 0x80) : isBreak (byteChar b) = false := by
  rw [lt_0x80_iff] at h
  exact isBreak_of_ge (by rw [toNat_byteChar]; omega)

theorem Reads.head_newline (h : Reads bs cs) :
    cs.head? = some '\n' ↔ (bs.map byteChar).head? = some '\n' := by
  have hnot : ∀ {c : Char}, isBreak c = false → ¬ some c = some '\n' := by
    rintro c hc ⟨⟩
    exact absurd hc (by decide)
  cases h with
  | nil => rfl
  | @cons piece rest c cs hpiece _ =>
    obtain ⟨a, more, rfl⟩ := List.exists_cons_of_ne_nil hpiece.ne_nil
    rcases hpiece.ascii with ⟨b, -, hb, rfl⟩ | ⟨hc, hnone⟩
    · obtain ⟨rfl, rfl⟩ := List.cons.inj hb
      rfl
    · exact iff_of_false (hnot (isBreak_of_ge hc)) (hnot (isBreak_byteChar (hnone a (by simp))))

/-- A byte of ASCII ends a line as its character does. -/
theorem Reads.endsLine (h : Reads bs cs) (c : Char) :
    Text.endsLine c cs = Text.endsLine c (bs.map byteChar) :=
  endsLine_congr h.head_newline c

/-- What is read from a first line with a piece put in front. -/
theorem Piece.map_prepend (h : Piece piece rest c) :
    (prepend piece (linesBy byteChar rest)).map decodeLossy =
      prepend [c] ((linesBy byteChar rest).map decodeLossy) := by
  cases hlines : linesBy byteChar rest with
  | nil =>
    have hpiece : Reads (piece ++ []) [c] := .cons (h.before (by simp)) .nil
    rw [List.append_nil] at hpiece
    simp [prepend, hpiece.decodeLossy_eq]
  | cons line lines =>
    have hfirst : rest = line ++ lines.flatten := by
      rw [← List.flatten_cons, ← hlines, flatten_linesBy]
    have hline : Reads (piece ++ line) (c :: decodeLossy line) := by
      rw [hfirst] at h
      exact .cons h.shorten (reads_decodeLossy line)
    simp [prepend, hline.decodeLossy_eq]

/-- The lines of what is read are what is read from the lines. -/
theorem Reads.lines (h : Reads bs cs) : linesBy id cs = (linesBy byteChar bs).map decodeLossy := by
  induction h with
  | nil => rfl
  | @cons piece rest c cs hpiece hrest ih =>
    rw [linesBy, List.map_id, ih, id]
    rcases hpiece.ascii with ⟨b, hb, rfl, rfl⟩ | ⟨hc, hnone⟩
    · have hbyte : decodeLossy [b] = [byteChar b] := by
        simpa [encode_byteChar hb] using decodeLossy_encode [byteChar b]
      rw [hrest.endsLine, List.singleton_append, linesBy, ← hpiece.map_prepend]
      split
      · rw [List.map_cons, hbyte]
      · rfl
    · have hunbroken : ∀ b ∈ piece, isBreak (byteChar b) = false := fun b hb =>
        isBreak_byteChar (hnone b hb)
      rw [endsLine_of_not_isBreak (isBreak_of_ge hc), if_neg Bool.false_ne_true,
        linesBy_unbroken hpiece.ne_nil hunbroken, hpiece.map_prepend]

/-- The breaks of what is read are those of the bytes. -/
theorem Reads.breakTexts (h : Reads bs cs) : breakTexts id cs = breakTexts byteChar bs := by
  have hchar : ∀ c : Char, (isBreak c && decide (c.toNat < 0x80)) = isBreak c := by
    intro c
    by_cases hc : c.toNat < 0x80
    · simp [hc]
    · rw [isBreak_of_ge (Nat.le_of_not_lt hc), Bool.false_and]
  have hbyte : ∀ b : UInt8, (isBreak (byteChar b) && decide (b < 0x80)) = isBreak (byteChar b) := by
    intro b
    by_cases hb : b < 0x80
    · simp [hb]
    · rw [isBreak_byteChar hb, Bool.false_and]
  have hline : ∀ line : List UInt8,
      (decodeLossy line).filter isBreak = (line.map byteChar).filter isBreak := by
    intro line
    have hread := congrArg (List.filter isBreak) (reads_decodeLossy line).filter_ascii
    simp only [List.filter_filter, List.filter_map, hchar, Function.comp_apply, hbyte] at hread
    rw [List.filter_map]
    exact hread
  rw [Text.breakTexts, h.lines, Text.breakTexts, List.map_map]
  exact List.map_congr_left fun line _ => by rw [Function.comp_apply, List.map_id, hline]

/-- A text can be split anywhere. Its parts are read from parts of the bytes, and as many breaks end before
the split in the bytes as in the text. -/
theorem Reads.split (h : Reads bs cs) (k : Nat) :
    ∃ front back, bs = front ++ back ∧ Reads front (cs.take k) ∧ Reads back (cs.drop k) ∧
      breaks front.length (bs.map byteChar) = breaks k cs := by
  induction h generalizing k with
  | nil => exact ⟨[], [], rfl, by simpa using .nil, by simpa using .nil, by simp⟩
  | @cons piece rest c cs hpiece hrest ih =>
    cases k with
    | zero => exact ⟨[], piece ++ rest, rfl, .nil, .cons hpiece hrest, by simp⟩
    | succ k =>
      obtain ⟨front, back, rfl, hfront, hback, hcount⟩ := ih k
      refine ⟨piece ++ front, back, by rw [List.append_assoc], .cons hpiece.shorten hfront, hback, ?_⟩
      rw [breaks_succ_cons, hrest.endsLine, ← hcount, List.length_append]
      rcases hpiece.ascii with ⟨b, -, rfl, rfl⟩ | ⟨hc, hnone⟩
      · rw [List.length_singleton, Nat.add_comm, List.singleton_append, List.map_cons,
          breaks_succ_cons]
      · rw [endsLine_of_not_isBreak (isBreak_of_ge hc), Bool.toNat_false, Nat.zero_add,
          breaks_unbroken fun b hb => isBreak_byteChar (hnone b hb)]

/-- From a place of the text that is read on, the bytes begin within a line, counted from 1: the text before
the place is read from the bytes before, and the text from there on from the other bytes. -/
def BeginsOnLine (bs : List UInt8) (pos : Pos) (line : Nat) : Prop :=
  ∃ before s t after, linesBy byteChar bs = before ++ (s ++ t) :: after ∧ before.length + 1 = line ∧
    t ≠ [] ∧
    decodeLossy (before.flatten ++ s) = (decodeLossy bs).take ((decodeLossy bs).length - pos) ∧
    decodeLossy (t ++ after.flatten) = (decodeLossy bs).drop ((decodeLossy bs).length - pos)

/-- The breaks before a place of the text tell the line of the bytes on which it is. -/
theorem beginsOnLine {pos : Nat} (hpos : 0 < pos) (hle : pos ≤ (decodeLossy bs).length) :
    BeginsOnLine bs pos (1 + breaks ((decodeLossy bs).length - pos) (decodeLossy bs)) := by
  obtain ⟨front, back, hsplit, hfront, hback, hcount⟩ :=
    (reads_decodeLossy bs).split ((decodeLossy bs).length - pos)
  have hne : back ≠ [] := by
    rintro rfl
    have hnil := hback.decodeLossy_eq
    rw [Reads.nil.decodeLossy_eq, eq_comm, List.drop_eq_nil_iff] at hnil
    omega
  obtain ⟨before, s, t, after, hlines, hbefore, hafter, ht, hlength⟩ := linesBy_at byteChar front hne
  rw [← hsplit] at hlines hlength
  refine ⟨before, s, t, after, hlines, ?_, ht, ?_, ?_⟩
  · rw [hlength, hcount, Nat.add_comm]
  · rw [hbefore, hfront.decodeLossy_eq]
  · rw [hafter, hback.decodeLossy_eq]

/-! ## The table has no more entries than there are lines -/

theorem length_prepend (front : List α) (lines : List (List α)) :
    (prepend front lines).length = max 1 lines.length := by
  cases lines <;> simp [prepend]

/-- A table and the offset at the end of the text, without an entry for a line that would begin there. -/
def trimmed (filled : Array UInt32 × UInt32) : Array UInt32 :=
  if filled.1.back? == some filled.2 then filled.1.pop else filled.1

theorem size_trimmed_le (filled : Array UInt32 × UInt32) : (trimmed filled).size ≤ filled.1.size := by
  rw [trimmed]
  split
  · rw [Array.size_pop]
    exact Nat.sub_le _ 1
  · exact Nat.le_refl _

theorem size_trimmed_of_back {starts : Array UInt32} {stop : UInt32} (h : starts.back? = some stop) :
    (trimmed (starts, stop)).size + 1 = starts.size := by
  have hpos : starts.size ≠ 0 := by
    intro hzero
    rw [Array.eq_empty_of_size_eq_zero hzero] at h
    cases h
  rw [trimmed, if_pos (by simp [h]), Array.size_pop]
  exact Nat.succ_pred_eq_of_ne_zero hpos

/-- While a table is filled, a line that has begun, with characters or without, has an entry in it. -/
theorem size_addLineStarts (starts : Array UInt32) (offset : UInt32) (cs : List Char) :
    (trimmed (addLineStarts starts offset cs)).size + 1 ≤ starts.size + max 1 (linesBy id cs).length ∧
      (starts.back? = some offset → (trimmed (addLineStarts starts offset cs)).size + 1 ≤
        starts.size + (linesBy id cs).length) := by
  induction cs generalizing starts offset with
  | nil =>
    have hle : (trimmed (starts, offset)).size ≤ starts.size := size_trimmed_le (starts, offset)
    exact ⟨Nat.add_le_add_right hle 1, fun hback => Nat.le_of_eq (size_trimmed_of_back hback)⟩
  | cons c cs ih =>
    rw [addLineStarts, linesBy, List.map_id, id]
    cases endsLine c cs with
    | true =>
      have hnext := (ih (starts.push (offset + c.utf8Size.toUInt32))
        (offset + c.utf8Size.toUInt32)).2 (by simp)
      rw [Array.size_push] at hnext
      simp only [if_true, List.length_cons]
      omega
    | false =>
      have hnext := (ih starts (offset + c.utf8Size.toUInt32)).1
      simp only [Bool.false_eq_true, if_false, length_prepend]
      omega

theorem size_lineStarts_le (text : List Char) : (lineStarts text).size ≤ (linesBy id text).length := by
  have hsize := (size_addLineStarts #[1] 1 text).2 rfl
  have hone : (#[1] : Array UInt32).size = 1 := rfl
  have htable : lineStarts text = trimmed (addLineStarts #[1] 1 text) := rfl
  rw [htable]
  omega

theorem findOffset_le {starts : Array UInt32} {offset : UInt32} {low high : Nat}
    {h : high ≤ starts.size} (hle : low ≤ high) :
    (match findOffset starts offset low high h with
      | .ok i => i + 1
      | .error i => i) ≤ high := by
  fun_induction findOffset starts offset low high h with
  | case1 low high h hlt middle hmiddle heq =>
    simp only [middle]
    omega
  | case2 low high h hlt middle hmiddle hne hless ih =>
    exact ih (by simp only [middle]; omega)
  | case3 low high h hlt middle hmiddle hne hnotless ih =>
    have hbelow := ih (by simp only [middle]; omega)
    exact Nat.le_trans hbelow (by simp only [middle]; omega)
  | case4 low high h hge => exact hle

/-- No line is looked up behind the last one, however long the text is. -/
theorem lineOf_le_length_linesBy (text : List Char) (pos : Pos) :
    lineOf text pos ≤ (linesBy id text).length :=
  Nat.le_trans (findOffset_le (Nat.zero_le _)) (size_lineStarts_le text)

end Census.Text
