import Mathlib.Data.String.Basic
import Census.Proofs.Text.Line
/-!
The line of a place is looked up in a table of line starts, by bytes. The table ascends, the search in it
finds how many entries there are up to an offset, and that number is told by the line breaks before the
place. A text put in front of another one moves the places of the second one down by the number of its
line breaks.
-/

namespace Census.Text

open String (utf8Len utf8Len_cons)

variable {cs front text : List Char} {c : Char} {n k : Nat} {pos : Pos}

/-! ## The table of line starts -/

/-- The offsets after the line ends of some characters, as numbers. -/
def lineEnds (offset : Nat) : List Char → List Nat
  | [] => []
  | c :: cs =>
    (if endsLine c cs then [offset + c.utf8Size] else []) ++ lineEnds (offset + c.utf8Size) cs

theorem toNat_add_utf8Size {offset : UInt32} {c : Char} (h : offset.toNat + c.utf8Size < 2 ^ 32) :
    (offset + c.utf8Size.toUInt32).toNat = offset.toNat + c.utf8Size := by
  have hc : c.utf8Size.toUInt32.toNat = c.utf8Size := by
    rw [Nat.toUInt32, UInt32.toNat_ofNat', Nat.mod_eq_of_lt (by omega)]
  rw [UInt32.toNat_add, hc, Nat.mod_eq_of_lt h]

theorem addLineStarts_eq {starts : Array UInt32} {offset : UInt32}
    (h : offset.toNat + utf8Len cs < 2 ^ 32) :
    (addLineStarts starts offset cs).1.toList.map UInt32.toNat =
        starts.toList.map UInt32.toNat ++ lineEnds offset.toNat cs ∧
      (addLineStarts starts offset cs).2.toNat = offset.toNat + utf8Len cs := by
  induction cs generalizing starts offset with
  | nil => simp [addLineStarts, lineEnds]
  | cons c cs ih =>
    rw [utf8Len_cons] at h
    have hnext : (offset + c.utf8Size.toUInt32).toNat = offset.toNat + c.utf8Size :=
      toNat_add_utf8Size (by omega)
    rw [addLineStarts, lineEnds, utf8Len_cons]
    obtain ⟨htable, hstop⟩ := @ih
      (if endsLine c cs then starts.push (offset + c.utf8Size.toUInt32) else starts)
      (offset + c.utf8Size.toUInt32) (by omega)
    rw [hnext] at htable hstop
    refine ⟨?_, by omega⟩
    rw [htable]
    split
    · rw [Array.toList_push, List.map_append, List.map_singleton, hnext, List.append_assoc]
    · rfl

theorem foldl_offset {offset : UInt32} (h : offset.toNat + utf8Len cs < 2 ^ 32) :
    (cs.foldl (fun offset c => offset + c.utf8Size.toUInt32) offset).toNat =
      offset.toNat + utf8Len cs := by
  induction cs generalizing offset with
  | nil => simp
  | cons c cs ih =>
    rw [utf8Len_cons] at h
    have hnext : (offset + c.utf8Size.toUInt32).toNat = offset.toNat + c.utf8Size :=
      toNat_add_utf8Size (by omega)
    rw [List.foldl_cons, ih (by omega), hnext, utf8Len_cons]
    omega

theorem toNat_offsetOf (hsize : utf8Len text ≤ 2 ^ 32 - 2) :
    (offsetOf text pos).toNat = 1 + utf8Len (text.take (text.length - pos)) := by
  have hsplit : text.take (text.length - pos) ++ text.drop (text.length - pos) = text :=
    List.take_append_drop _ _
  have hlen : utf8Len (text.take (text.length - pos)) ≤ utf8Len text := by
    rw [← hsplit, String.utf8Len_append, hsplit]
    exact Nat.le_add_right _ _
  have hone : (1 : UInt32).toNat = 1 := rfl
  rw [offsetOf, foldl_offset (by omega), hone]

/-- The ends of lines ascend, from after the first character to the end of the text. -/
theorem mem_lineEnds {offset s : Nat} (h : s ∈ lineEnds offset cs) :
    offset < s ∧ s ≤ offset + utf8Len cs := by
  induction cs generalizing offset with
  | nil => simp [lineEnds] at h
  | cons c cs ih =>
    have hc := c.utf8Size_pos
    rw [utf8Len_cons]
    rcases List.mem_append.mp h with h | h
    · split at h
      · obtain rfl := List.mem_singleton.mp h
        omega
      · simp at h
    · have hrest := ih h
      omega

theorem pairwise_lineEnds (offset : Nat) (cs : List Char) :
    (lineEnds offset cs).Pairwise (· < ·) := by
  induction cs generalizing offset with
  | nil => exact List.Pairwise.nil
  | cons c cs ih =>
    refine List.pairwise_append.mpr ⟨?_, ih _, ?_⟩
    · split <;> simp
    · intro s hs s' hs'
      split at hs
      · obtain rfl := List.mem_singleton.mp hs
        exact (mem_lineEnds hs').1
      · simp at hs

/-- Among the ends of lines before the end of the text, those that are not after the `n`th character are
as many as the breaks among the first `n` characters without the last. -/
theorem countP_lineEnds (offset : Nat) (h : n ≤ cs.length) :
    (lineEnds offset cs).countP (fun s => s ≤ offset + utf8Len (cs.take n) ∧ s < offset + utf8Len cs) =
      breaks (min n (cs.length - 1)) cs := by
  induction cs generalizing offset n with
  | nil => simp [lineEnds]
  | cons c cs ih =>
    cases n with
    | zero =>
      have hnone : ∀ s ∈ lineEnds offset (c :: cs), ¬ s ≤ offset := by
        intro s hs
        have := mem_lineEnds hs
        omega
      simp only [List.take_zero, String.utf8Len_nil, Nat.add_zero, Nat.zero_min, breaks_zero]
      refine List.countP_eq_zero.mpr fun s hs => ?_
      have := hnone s hs
      simp [this]
    | succ n =>
      have hrest := ih (offset + c.utf8Size) (Nat.le_of_succ_le_succ h)
      have htake : offset + utf8Len ((c :: cs).take (n + 1)) =
          offset + c.utf8Size + utf8Len (cs.take n) := by
        rw [List.take_succ_cons, utf8Len_cons]
        omega
      have hlen : offset + utf8Len (c :: cs) = offset + c.utf8Size + utf8Len cs := by
        rw [utf8Len_cons]
        omega
      rw [htake, hlen, lineEnds, List.countP_append, hrest]
      cases cs with
      | nil =>
        -- a break after the last character ends where the text does
        have hend : List.countP (fun s => s ≤ offset + c.utf8Size + utf8Len ([].take n) ∧
            s < offset + c.utf8Size + utf8Len []) (if endsLine c [] then [offset + c.utf8Size] else []) =
              0 := by
          split <;> simp
        rw [hend]
        simp
      | cons d ds =>
        have hd := d.utf8Size_pos
        have hfirst : List.countP (fun s => s ≤ offset + c.utf8Size + utf8Len ((d :: ds).take n) ∧
            s < offset + c.utf8Size + utf8Len (d :: ds))
              (if endsLine c (d :: ds) then [offset + c.utf8Size] else []) =
            (endsLine c (d :: ds)).toNat := by
          rw [utf8Len_cons]
          split
          · rename_i hends
            rw [hends, Bool.toNat_true, List.countP_singleton, if_pos]
            simp only [decide_eq_true_eq]
            omega
          · rename_i hends
            rw [Bool.eq_false_iff.mpr hends, Bool.toNat_false, List.countP_nil]
        have hmin : min (n + 1) ((c :: d :: ds).length - 1) = min n ((d :: ds).length - 1) + 1 := by
          simp only [List.length_cons]
          omega
        rw [hfirst, hmin, breaks_succ_cons]

/-- What is left of an ascending table without an entry at its end. -/
theorem pop_eq_filter {starts : List Nat} {stop : Nat} (hsorted : starts.Pairwise (· < ·))
    (hle : ∀ s ∈ starts, s ≤ stop) :
    (if starts.getLast? = some stop then starts.dropLast else starts) = starts.filter (· < stop) := by
  rcases List.eq_nil_or_concat starts with rfl | ⟨init, last, rfl⟩
  · rfl
  · have hinit : ∀ s ∈ init, s < last := by
      intro s hs
      exact (List.pairwise_append.mp (List.concat_eq_append ▸ hsorted)).2.2 s hs last (by simp)
    have hlast : last ≤ stop := hle last (by simp)
    have hkept : init.filter (· < stop) = init := by
      refine List.filter_eq_self.mpr fun s hs => ?_
      have := hinit s hs
      simp only [decide_eq_true_eq]
      omega
    rw [List.concat_eq_append, List.getLast?_concat, List.filter_append, hkept, List.dropLast_concat]
    rcases Nat.lt_or_eq_of_le hlast with hlt | rfl
    · have hne : ¬ some last = some stop := by
        rw [Option.some.injEq]
        omega
      rw [if_neg hne, List.filter_singleton, decide_eq_true hlt, cond_true]
    · rw [if_pos rfl, List.filter_singleton, decide_eq_false (Nat.lt_irrefl last), cond_false,
        List.append_nil]

/-- The table holds the offset of the first character and the ends of lines, but not the end of the
text. -/
theorem lineStarts_eq (hsize : utf8Len text ≤ 2 ^ 32 - 2) :
    (lineStarts text).toList.map UInt32.toNat =
      (1 :: lineEnds 1 text).filter (· < 1 + utf8Len text) := by
  have hone : (1 : UInt32).toNat = 1 := rfl
  obtain ⟨htable, hstop⟩ := @addLineStarts_eq text #[1] 1 (by rw [hone]; omega)
  rw [hone] at htable hstop
  have hsorted : (1 :: lineEnds 1 text).Pairwise (· < ·) :=
    List.pairwise_cons.mpr ⟨fun s hs => (mem_lineEnds hs).1, pairwise_lineEnds 1 text⟩
  have hle : ∀ s ∈ 1 :: lineEnds 1 text, s ≤ 1 + utf8Len text := by
    intro s hs
    rcases List.mem_cons.mp hs with rfl | hs
    · exact Nat.le_add_right _ _
    · exact (mem_lineEnds hs).2
  rw [← pop_eq_filter hsorted hle, lineStarts]
  generalize addLineStarts #[1] 1 text = result at htable hstop
  obtain ⟨starts, stop⟩ := result
  have hlast : starts.back? = some stop ↔ (1 :: lineEnds 1 text).getLast? = some (1 + utf8Len text) := by
    rw [← Array.getLast?_toList, ← hstop, show 1 :: lineEnds 1 text = _ from htable.symm,
      List.getLast?_map, Option.map_eq_some_iff]
    simp only [UInt32.toNat_inj, exists_eq_right]
  dsimp only at htable ⊢
  split
  · rename_i hback
    rw [if_pos (hlast.mp (beq_iff_eq.mp hback)), Array.toList_pop, List.map_dropLast, htable]
    rfl
  · rename_i hback
    rw [if_neg (mt hlast.mpr (mt beq_iff_eq.mpr hback)), htable]
    rfl

theorem pairwise_lineStarts (hsize : utf8Len text ≤ 2 ^ 32 - 2) :
    (lineStarts text).toList.Pairwise (· < ·) := by
  have hsorted : ((lineStarts text).toList.map UInt32.toNat).Pairwise (· < ·) := by
    rw [lineStarts_eq hsize]
    refine List.Pairwise.filter _ ?_
    exact List.pairwise_cons.mpr ⟨fun s hs => (mem_lineEnds hs).1, pairwise_lineEnds 1 text⟩
  exact (List.pairwise_map.mp hsorted).imp UInt32.lt_iff_toNat_lt.mpr

/-! ## Searching the table -/

/-- Where the entries of a table stop being at most an offset. -/
structure SplitsAt (starts : Array UInt32) (offset : UInt32) (k : Nat) : Prop where
  bounded : k ≤ starts.size
  below : ∀ (i : Nat) (h : i < starts.size), i < k → starts[i] ≤ offset
  above : ∀ (i : Nat) (h : i < starts.size), k ≤ i → offset < starts[i]

theorem SplitsAt.eq_countP {starts : Array UInt32} {offset : UInt32} (h : SplitsAt starts offset k) :
    k = starts.toList.countP (· ≤ offset) := by
  have hbelow : (starts.toList.take k).countP (· ≤ offset) = (starts.toList.take k).length := by
    refine List.countP_eq_length.mpr fun s hs => ?_
    obtain ⟨i, hi, rfl⟩ := List.mem_take_iff_getElem.mp hs
    have hlength : i < k ∧ i < starts.size := by simpa using hi
    exact decide_eq_true (h.below i hlength.2 hlength.1)
  have habove : (starts.toList.drop k).countP (· ≤ offset) = 0 := by
    refine List.countP_eq_zero.mpr fun s hs => ?_
    obtain ⟨i, hi, rfl⟩ := List.mem_drop_iff_getElem.mp hs
    have hgt := h.above (k + i) (by simpa [Nat.add_comm] using hi) (Nat.le_add_right k i)
    exact mt of_decide_eq_true (UInt32.not_le.mpr hgt)
  have hlength : (starts.toList.take k).length = k := by
    simpa using h.bounded
  rw [← List.take_append_drop k starts.toList, List.countP_append, hbelow, habove, hlength,
    Nat.add_zero]

/-- In an ascending table the search finds an offset or the index where the entries pass it, if what is
outside of its bounds is on the right side of the offset. -/
theorem findOffset_splits {starts : Array UInt32} {offset : UInt32} {low high : Nat}
    {h : high ≤ starts.size} (hsorted : starts.toList.Pairwise (· < ·)) (hle : low ≤ high)
    (hbelow : ∀ (i : Nat) (hi : i < starts.size), i < low → starts[i] ≤ offset)
    (habove : ∀ (i : Nat) (hi : i < starts.size), high ≤ i → offset < starts[i]) :
    SplitsAt starts offset
      (match findOffset starts offset low high h with
        | .ok i => i + 1
        | .error i => i) := by
  have hascends : ∀ (i j : Nat) (hi : i < starts.size) (hj : j < starts.size), i < j →
      starts[i] < starts[j] := by
    simpa [List.pairwise_iff_getElem] using hsorted
  fun_induction findOffset starts offset low high h with
  | case1 low high h hlt middle hmiddle heq =>
    refine ⟨hmiddle, fun i hi hlow => ?_, fun i hi hhigh => ?_⟩
    · rcases Nat.lt_succ_iff_lt_or_eq.mp hlow with hless | rfl
      · exact UInt32.le_of_lt (heq ▸ hascends i middle hi hmiddle hless)
      · exact UInt32.le_of_eq heq
    · exact heq ▸ hascends middle i hmiddle hi hhigh
  | case2 low high h hlt middle hmiddle hne hless ih =>
    refine ih (by simp only [middle]; omega) (fun i hi hlow => ?_) habove
    rcases Nat.lt_succ_iff_lt_or_eq.mp hlow with hlow | rfl
    · exact UInt32.le_of_lt (UInt32.lt_trans (hascends i middle hi hmiddle hlow) hless)
    · exact UInt32.le_of_lt hless
  | case3 low high h hlt middle hmiddle hne hnotless ih =>
    have hgt : offset < starts[middle] :=
      UInt32.lt_of_le_of_ne (UInt32.not_lt.mp hnotless) (Ne.symm hne)
    refine ih (by simp only [middle]; omega) hbelow fun i hi hhigh => ?_
    rcases Nat.lt_or_eq_of_le hhigh with hhigh | rfl
    · exact UInt32.lt_trans hgt (hascends middle i hmiddle hi hhigh)
    · exact hgt
  | case4 low high h hge =>
    obtain rfl : low = high := Nat.le_antisymm hle (Nat.le_of_not_lt hge)
    exact ⟨h, hbelow, habove⟩

/-! ## Lines of places -/

/-- A place is on the line that the line starts up to it count. -/
theorem lineOf_eq_countP (hsize : utf8Len text ≤ 2 ^ 32 - 2) (pos : Pos) :
    lineOf text pos = (lineStarts text).toList.countP (· ≤ offsetOf text pos) := by
  refine SplitsAt.eq_countP (findOffset_splits (pairwise_lineStarts hsize) (Nat.zero_le _) ?_ ?_)
  · intro i hi hlow
    exact absurd hlow (Nat.not_lt_zero i)
  · intro i hi hhigh
    exact absurd hi (Nat.not_lt_of_le hhigh)

/-- The line of a place is told by the breaks that end at it or before it, but before the end of the
text. -/
theorem lineOf_eq (hne : text ≠ []) (hsize : utf8Len text ≤ 2 ^ 32 - 2) (pos : Pos) :
    lineOf text pos = 1 + breaks (text.length - max pos 1) text := by
  have hcount : (lineStarts text).toList.countP (· ≤ offsetOf text pos) =
      ((lineStarts text).toList.map UInt32.toNat).countP (· ≤ (offsetOf text pos).toNat) := by
    rw [List.countP_map]
    rfl
  have hfirst : 1 < 1 + utf8Len text := by
    obtain ⟨c, cs, rfl⟩ := List.exists_cons_of_ne_nil hne
    have hc := c.utf8Size_pos
    rw [utf8Len_cons]
    omega
  have hmin : min (text.length - pos) (text.length - 1) = text.length - max pos 1 := by omega
  rw [lineOf_eq_countP hsize, hcount, lineStarts_eq hsize, toNat_offsetOf hsize,
    List.countP_filter, List.countP_cons_of_pos (by simpa using hfirst), ← hmin,
    ← countP_lineEnds 1 (Nat.sub_le text.length pos), Nat.add_comm]
  simp only [Bool.decide_and]

/-- A text in front moves every place of a text down by its line breaks. -/
theorem lineOf_append (h : ¬ SplitsBreak front text) (hne : text ≠ [])
    (hsize : utf8Len (front ++ text) ≤ 2 ^ 32 - 2) (hp : pos ≤ text.length) :
    lineOf (front ++ text) pos = lineOf text pos + lineBreaks front := by
  have hmax : max pos 1 ≤ text.length := Nat.max_le.mpr ⟨hp, List.length_pos_of_ne_nil hne⟩
  have hlength : (front ++ text).length - max pos 1 =
      front.length + (text.length - max pos 1) := by
    rw [List.length_append, Nat.add_sub_assoc hmax]
  have hsize' : utf8Len text ≤ 2 ^ 32 - 2 := by
    rw [String.utf8Len_append] at hsize
    omega
  rw [lineOf_eq (List.append_ne_nil_of_right_ne_nil front hne) hsize, lineOf_eq hne hsize', hlength,
    breaks_append h, breaks_length]
  omega

/-- Lines count from 1, and there is one more of them than line breaks. -/
theorem lineOf_bounds (hne : text ≠ []) (hsize : utf8Len text ≤ 2 ^ 32 - 2) (pos : Pos) :
    1 ≤ lineOf text pos ∧ lineOf text pos ≤ 1 + lineBreaks text := by
  have hle : breaks (text.length - max pos 1) text ≤ lineBreaks text :=
    breaks_le_lineBreaks (Nat.sub_le _ _)
  rw [lineOf_eq hne hsize]
  omega

end Census.Text
