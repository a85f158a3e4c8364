import Census.Proofs.Callable.Lines
import Census.Proofs.Script.Layout
/-!
Callables are listed in the order of the text, but for those in the body of a class and in what the class
extends, and those in the test of a `do` loop and in its body.
-/

namespace Census

open Census.Script
open Census.Text (Pos lineOf)

variable {m : Module} {text : List Char}

/-- The callables of a module with the places where they stand, in the order of a visit. -/
def Script.Module.standing (m : Module) : List (Place × Callable) :=
  m.places.filterMap fun p => p.callable?.map fun c => (p, c)

theorem map_standing (m : Module) : m.standing.map Prod.snd = discover m := by
  rw [discover_eq_filterMap, Module.standing, List.map_filterMap]
  congr 1
  funext p
  cases p.callable? <;> rfl

theorem records_eq_standing (file : String) (text : List Char) (m : Module) :
    callableRecords file text m = m.standing.map fun s => s.2.record file text := by
  rw [callableRecords, ← map_standing, List.map_map]
  rfl

/-- A callable stands behind one that is listed before it, or both are in parts that are listed the other
way round. -/
theorem standing_pairwise (h : m.LaidOut) :
    m.standing.Pairwise fun s t => t.2.start ≤ s.2.start ∨ Turned m.places s.1 t.1 := by
  refine List.Pairwise.filterMap _ ?_ (Module.places_inOrder h)
  intro p q hpq s hs t ht
  obtain ⟨c, hc, rfl⟩ := Option.map_eq_some_iff.mp hs
  obtain ⟨d, hd, rfl⟩ := Option.map_eq_some_iff.mp ht
  dsimp only
  rwa [callable?_start hc, callable?_start hd]

/-- Nothing is turned in a module without `do` loops and without classes that extend others. -/
theorem not_turned (h : ∀ p ∈ m.places, p.node.construct ≠ .doLoop ∧ p.node.isSubclass = false)
    (p q : Place) : ¬ Turned m.places p q := by
  rintro ⟨owner, howner, i, j, hturns, -, -⟩
  obtain ⟨hloop, hclass⟩ := h owner howner
  rw [Node.turns, Bool.or_eq_true] at hturns
  rcases hturns with hturns | hturns
  · simp only [Bool.and_eq_true, Node.partIs, Option.any_eq_true] at hturns
    obtain ⟨⟨hisClass, -⟩, part, hpart, hheritage⟩ := hturns
    have hany : owner.node.isSubclass = true := by
      rw [Node.isSubclass, hisClass, Bool.true_and]
      exact List.any_eq_true.mpr ⟨part, List.mem_of_getElem? hpart, hheritage⟩
    exact absurd (hany.symm.trans hclass) (by simp)
  · simp only [Bool.and_eq_true, beq_iff_eq] at hturns
    exact hloop hturns.1.1

theorem lineOf_nil (pos pos' : Pos) : lineOf [] pos = lineOf [] pos' := by
  simp [lineOf, Text.offsetOf]

/-- A place further on in the text is not on an earlier line. -/
theorem lineOf_mono (hsize : (String.ofList text).utf8ByteSize ≤ 2 ^ 32 - 2) {pos pos' : Nat}
    (h : pos' ≤ pos) : lineOf text pos ≤ lineOf text pos' := by
  have hbytes : String.utf8Len text ≤ 2 ^ 32 - 2 := String.utf8ByteSize_ofList text ▸ hsize
  by_cases hne : text = []
  · subst hne
    exact Nat.le_of_eq (lineOf_nil pos pos')
  · have hbreaks := Text.breaks_mono
      (show text.length - max pos 1 ≤ text.length - max pos' 1 by omega) text
    rw [Text.lineOf_eq hne hbytes, Text.lineOf_eq hne hbytes]
    omega

theorem Callable.record_line_le (hsize : (String.ofList text).utf8ByteSize ≤ 2 ^ 32 - 2)
    (file : String) {c d : Callable} (h : d.start ≤ c.start) :
    (c.record file text).line ≤ (d.record file text).line := by
  by_cases hne : text = []
  · subst hne
    exact UInt32.le_of_eq (congrArg UInt32.ofNat (lineOf_nil c.start d.start))
  · refine UInt32.le_iff_toNat_le.mpr ?_
    calc
      (UInt32.ofNat (lineOf text c.start)).toNat = lineOf text c.start := toNat_lineOf hsize hne _
      _ ≤ lineOf text d.start := lineOf_mono hsize h
      _ = (UInt32.ofNat (lineOf text d.start)).toNat := (toNat_lineOf hsize hne _).symm

/-- In a module whose spans are those of its text, a callable that is listed before another one starts no
later in the text, unless one is in the body of a class and the other in what the class extends, or one in
the test of a `do` loop and the other in its body. Without such classes and loops the starts of the
callables never go back, nor do the lines of their records in a text of fewer than `2 ^ 32 - 1` bytes. -/
theorem callables_in_text_order (m : Module) (h : m.LaidOut) :
    (∀ file text, callableRecords file text m = m.standing.map fun s => s.2.record file text) ∧
      (m.standing.Pairwise fun s t => s.2.start < t.2.start → Turned m.places s.1 t.1) ∧
      ((∀ p ∈ m.places, p.node.construct ≠ .doLoop ∧ p.node.isSubclass = false) →
        ((discover m).Pairwise fun c d => d.start ≤ c.start) ∧
          ∀ file text, (String.ofList text).utf8ByteSize ≤ 2 ^ 32 - 2 →
            (callableRecords file text m).Pairwise fun r s => r.line ≤ s.line) := by
  have horder := standing_pairwise h
  refine ⟨fun file text => records_eq_standing file text m, ?_, fun hplain => ?_⟩
  · refine horder.imp fun hst hlt => ?_
    exact hst.resolve_left (Nat.not_le_of_lt hlt)
  · have hstarts : (discover m).Pairwise fun c d => d.start ≤ c.start := by
      rw [← map_standing, List.pairwise_map]
      exact horder.imp fun hst => hst.resolve_right (not_turned hplain _ _)
    refine ⟨hstarts, fun file text hsize => ?_⟩
    rw [callableRecords, List.pairwise_map]
    exact hstarts.imp fun hle => Callable.record_line_le hsize file hle

/-- A class that extends another one, and a `do` loop, each with callables in both parts. -/
def sampleTurned : List Char :=
  ("class A extends class \x7b m() \x7b\x7d \x7d \x7b n() \x7b\x7d \x7d\n" ++
    "do \x7b function g() \x7b\x7d \x7d while (class \x7b h() \x7b\x7d \x7d);").toList

/-- A member starts at its modifier, and a function that is bound to a name at the function. -/
def sampleStraight : List Char :=
  "class B \x7b\nstatic async m() \x7b\x7d \x7d\nconst\nf = (\nfunction () \x7b\x7d);".toList

theorem callables_in_text_order_samples :
    (∃ m, parse "a.js" sampleTurned = .ok m ∧ m.LaidOut ∧
        (discover m).map (·.name) = [some "n", some "m", some "h", some "g"] ∧
        (¬ (discover m).Pairwise fun c d => d.start ≤ c.start) ∧
        m.standing.Pairwise fun s t => s.2.start < t.2.start → Turned m.places s.1 t.1) ∧
      ∃ m, parse "b.js" sampleStraight = .ok m ∧ m.LaidOut ∧
        (∀ p ∈ m.places, p.node.construct ≠ .doLoop ∧ p.node.isSubclass = false) ∧
        (callableRecords "b.js" sampleStraight m).map (·.line) = [2, 5] ∧
        (callableRecords "b.js" sampleStraight m).Pairwise fun r s => r.line ≤ s.line := by
  have hturned : ∃ m, parse "a.js" sampleTurned = .ok m ∧ m.LaidOut ∧
      (discover m).map (·.name) = [some "n", some "m", some "h", some "g"] ∧
      ¬ (discover m).Pairwise fun c d => d.start ≤ c.start :=
    exists_ok_of_any (by decide +kernel)
  have hstraight : ∃ m, parse "b.js" sampleStraight = .ok m ∧ m.LaidOut ∧
      (∀ p ∈ m.places, p.node.construct ≠ .doLoop ∧ p.node.isSubclass = false) ∧
      (callableRecords "b.js" sampleStraight m).map (·.line) = [2, 5] :=
    exists_ok_of_any (by decide +kernel)
  obtain ⟨m, hm, hlaid, hnames, hback⟩ := hturned
  obtain ⟨m', hm', hlaid', hplain, hlines⟩ := hstraight
  exact ⟨⟨m, hm, hlaid, hnames, hback, (callables_in_text_order m hlaid).2.1⟩,
    m', hm', hlaid', hplain, hlines,
    ((callables_in_text_order m' hlaid').2.2 hplain).2 "b.js" sampleStraight (by decide +kernel)⟩

end Census
