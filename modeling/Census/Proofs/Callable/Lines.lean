import Census.Proofs.Callable.Places
import Census.Proofs.Callable.Within
import Census.Proofs.Except
/-!
The lines of a report. The line of a callable, and of the error that keeps a text from being a module, is
looked up in the table of line starts and told by the line breaks before the place where it starts.
-/

namespace Census

open Census.Script
open Census.Text (Pos lineOf lineBreaks breaks)

variable {file : String} {text : List Char} {pos : Pos}

/-- The number of the line on which a place is, as it stands in a report: one more than the line breaks
that end there or before, and so at most one more than all line breaks. -/
structure IsLineAt (text : List Char) (pos : Pos) (line : UInt32) : Prop where
  eq_breaks : line.toNat = 1 + breaks (text.length - pos) text
  one_le : 1 ≤ line.toNat
  le_lineBreaks : line.toNat ≤ 1 + lineBreaks text

/-- The line that the table gives for the end of a text is that of the last character. -/
theorem isLineAt_lineOf (hsize : (String.ofList text).utf8ByteSize ≤ 2 ^ 32 - 2) (hne : text ≠ [])
    (pos : Pos) : IsLineAt text (max pos 1) (.ofNat (lineOf text pos)) := by
  have hbytes : String.utf8Len text ≤ 2 ^ 32 - 2 := String.utf8ByteSize_ofList text ▸ hsize
  have hbounds := Text.lineOf_bounds hne hbytes pos
  have hline := toNat_lineOf hsize hne pos
  rw [← hline] at hbounds
  exact
    { eq_breaks := hline.trans (Text.lineOf_eq hne hbytes pos)
      one_le := hbounds.1
      le_lineBreaks := hbounds.2 }

/-- A callable starts where the node at its place does. -/
theorem callable?_start {p : Place} {c : Callable} (h : p.callable? = some c) :
    c.start = p.node.start := by
  obtain ⟨node, above⟩ := p
  unfold Place.callable? at h
  dsimp only at h ⊢
  split at h
  · rw [← Option.some.inj h]
    rfl
  · split at h
    · rw [← Option.some.inj h]
      rfl
    · obtain ⟨v, -, rfl⟩ := Option.map_eq_some_iff.mp h
      rfl
  · obtain ⟨v, -, rfl⟩ := Option.map_eq_some_iff.mp h
    rfl
  · rw [← Option.some.inj h]
    rfl
  · cases h

/-- Each record of a module comes from a place at which a token stands, and its line is that of the
place. -/
theorem record_line {m : Module} {r : CallableRecord}
    (hsize : (String.ofList text).utf8ByteSize ≤ 2 ^ 32 - 2) (hm : Within text.length m)
    (hr : r ∈ callableRecords file text m) :
    ∃ p ∈ m.places, p.callable?.map (·.record file text) = some r ∧
      0 < p.node.start ∧ p.node.start ≤ text.length ∧
      r.line.toNat = lineOf text p.node.start ∧ IsLineAt text p.node.start r.line := by
  obtain ⟨c, hc, rfl⟩ := List.mem_map.mp hr
  obtain ⟨hpos, hle⟩ : 0 < c.start ∧ c.start ≤ text.length := discover_within hm c hc
  have hne : text ≠ [] := List.ne_nil_of_length_pos (Nat.lt_of_lt_of_le hpos hle)
  rw [discover_eq_filterMap] at hc
  obtain ⟨p, hp, hcallable⟩ := List.mem_filterMap.mp hc
  have hline := isLineAt_lineOf hsize hne c.start
  rw [Nat.max_eq_left hpos] at hline
  refine ⟨p, hp, by rw [hcallable, Option.map_some], ?_⟩
  rw [← callable?_start hcallable]
  exact ⟨hpos, hle, toNat_lineOf hsize hne c.start, hline⟩

/-- The line of a fault is that of the place where it starts, or that of the last character for a fault at
the end of the text. -/
theorem fault_line {fault : Fault} (hsize : (String.ofList text).utf8ByteSize ≤ 2 ^ 32 - 2)
    (hread : Module.read text = .error fault) :
    fault.pos ≤ text.length ∧
      (fault.inFile file text).line.toNat = lineOf text fault.pos ∧
      IsLineAt text (max fault.pos 1) (fault.inFile file text).line := by
  have hwithin : Within text.length (Module.read text) := Module.read_within text
  rw [hread] at hwithin
  have hne : text ≠ [] := by
    rintro rfl
    rw [Module.read_nil] at hread
    cases hread
  exact ⟨Within.fault_pos (within_error.mp hwithin), toNat_lineOf hsize hne fault.pos,
    isLineAt_lineOf hsize hne fault.pos⟩

/-- In a text of fewer than `2 ^ 32 - 1` bytes, the line of each record is one more than the number of line
breaks that end where its construct starts or before, and so is the line of the error of a text that is no
module, except that a line break at the end of the text is not counted. -/
theorem lines_count_breaks (file : String) (text : List Char)
    (hsize : (String.ofList text).utf8ByteSize ≤ 2 ^ 32 - 2) :
    match Module.read text with
    | .ok m =>
      parse file text = .ok m ∧
        ∀ r ∈ callableRecords file text m,
          ∃ p ∈ m.places, p.callable?.map (·.record file text) = some r ∧
            0 < p.node.start ∧ p.node.start ≤ text.length ∧
            r.line.toNat = lineOf text p.node.start ∧ IsLineAt text p.node.start r.line
    | .error fault =>
      parse file text = .error (fault.inFile file text) ∧
        fault.pos ≤ text.length ∧
        (fault.inFile file text).line.toNat = lineOf text fault.pos ∧
        IsLineAt text (max fault.pos 1) (fault.inFile file text).line := by
  have hwithin : Within text.length (Module.read text) := Module.read_within text
  unfold parse
  cases hread : Module.read text with
  | ok m =>
    rw [hread] at hwithin
    exact ⟨rfl, fun r hr => record_line hsize (within_ok.mp hwithin) hr⟩
  | error fault => exact ⟨rfl, fault_line hsize hread⟩

/-- Lines that end in each of the three ways, and a line separator within a string, which ends none. -/
def sampleLines : List Char :=
  "// a\r\n\rconst f =\n() => '\u2028';\r\nfunction g() \x7b\x7d".toList

theorem lines_count_breaks_sampleLines :
    (parse "a.js" sampleLines).map (callableRecords "a.js" sampleLines) =
        .ok [⟨"f", "a.js", 4, .arrowFunction⟩, ⟨"g", "a.js", 5, .functionDeclaration⟩] ∧
      match Module.read sampleLines with
      | .ok m =>
        parse "a.js" sampleLines = .ok m ∧
          ∀ r ∈ callableRecords "a.js" sampleLines m,
            ∃ p ∈ m.places, p.callable?.map (·.record "a.js" sampleLines) = some r ∧
              0 < p.node.start ∧ p.node.start ≤ sampleLines.length ∧
              r.line.toNat = lineOf sampleLines p.node.start ∧
              IsLineAt sampleLines p.node.start r.line
      | .error fault =>
        parse "a.js" sampleLines = .error (fault.inFile "a.js" sampleLines) ∧
          fault.pos ≤ sampleLines.length ∧
          (fault.inFile "a.js" sampleLines).line.toNat = lineOf sampleLines fault.pos ∧
          IsLineAt sampleLines (max fault.pos 1) (fault.inFile "a.js" sampleLines).line :=
  ⟨by decide +kernel, lines_count_breaks "a.js" sampleLines (by decide +kernel)⟩

/-- A parameter list that the text ends in, after a line break. -/
def sampleUnclosed : List Char := "function broken( \x7b\n".toList

/-- An error at the end of a text is not on the line that all breaks before it tell. -/
theorem error_line_before_last_break :
    (String.ofList sampleUnclosed).utf8ByteSize ≤ 2 ^ 32 - 2 ∧
      ∃ fault e, Module.read sampleUnclosed = .error fault ∧
        parse "broken.js" sampleUnclosed = .error e ∧ e.line.toNat ≠ 0 ∧
        e.line.toNat ≠ 1 + breaks (sampleUnclosed.length - fault.pos) sampleUnclosed := by
  have hread : (Module.read sampleUnclosed).map (fun _ => ()) =
      .error ⟨0, .unexpected Kind.eof.label
        "identifier, string literal, numeric literal or [ for the computed key"⟩ := by
    decide +kernel
  have hparse : (parse "broken.js" sampleUnclosed).map (fun _ => ()) =
      .error ⟨"broken.js", 1, "Unexpected token `<eof>`. Expected identifier, " ++
        "string literal, numeric literal or [ for the computed key"⟩ := by
    decide +kernel
  exact ⟨by decide +kernel, _, _, map_eq_error.mp hread, map_eq_error.mp hparse, by decide, by decide⟩

end Census
