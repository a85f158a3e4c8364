import Census.Proofs.Callable.Within
import Census.Proofs.Script.Trivia
/-!
Blanks, line ends and comments in front of a script change nothing in its report but the lines, and these
all by the same number.
-/

namespace Census

open Census.Script
open Census.Text (Pos lineOf lineBreaks SplitsBreak)

variable {n : Pos} {k : Nat} {file : String} {s t : List Char}

/-! ## Further down -/

/-- Two records of one callable, the second `k` lines further down. -/
structure CallableRecord.Lowered (k : Nat) (r r' : CallableRecord) : Prop where
  name : r'.name = r.name
  kind : r'.kind = r.kind
  file : r'.file = r.file
  line : r'.line.toNat = r.line.toNat + k

/-- Two errors with one message, the second `k` lines further down. -/
structure Script.ParseError.Lowered (k : Nat) (e e' : ParseError) : Prop where
  message : e'.message = e.message
  file : e'.file = e.file
  line : e'.line.toNat = e.line.toNat + k

/-- The line of a place within a text, and its line with trivia in front, as the numbers of a report. -/
theorem toNat_lineOf_append (hjoin : ¬ SplitsBreak t s)
    (hsize : (String.ofList (t ++ s)).utf8ByteSize ≤ 2 ^ 32 - 2) (hs : s ≠ []) {pos : Pos}
    (hp : pos ≤ s.length) :
    (UInt32.ofNat (lineOf (t ++ s) pos)).toNat =
      (UInt32.ofNat (lineOf s pos)).toNat + lineBreaks t := by
  have hbytes : String.utf8Len (t ++ s) ≤ 2 ^ 32 - 2 := String.utf8ByteSize_ofList _ ▸ hsize
  have hpart : (String.ofList s).utf8ByteSize ≤ 2 ^ 32 - 2 := by
    rw [String.utf8ByteSize_ofList]
    rw [String.utf8Len_append] at hbytes
    omega
  rw [toNat_lineOf hsize (List.append_ne_nil_of_right_ne_nil t hs), toNat_lineOf hpart hs]
  exact Text.lineOf_append hjoin hs hbytes hp

theorem Callable.record_lowered {c : Callable} (hjoin : ¬ SplitsBreak t s)
    (hsize : (String.ofList (t ++ s)).utf8ByteSize ≤ 2 ^ 32 - 2) (hs : s ≠ [])
    (hc : c.start ≤ s.length) :
    (c.record file s).Lowered (lineBreaks t) (c.record file (t ++ s)) :=
  { name := rfl
    kind := rfl
    file := rfl
    line := toNat_lineOf_append hjoin hsize hs hc }

theorem Script.Fault.inFile_lowered {fault : Fault} (hjoin : ¬ SplitsBreak t s)
    (hsize : (String.ofList (t ++ s)).utf8ByteSize ≤ 2 ^ 32 - 2) (hs : s ≠ [])
    (hf : fault.pos ≤ s.length) :
    (fault.inFile file s).Lowered (lineBreaks t) (fault.inFile file (t ++ s)) :=
  { message := rfl
    file := rfl
    line := toNat_lineOf_append hjoin hsize hs hf }

/-- Blanks, line ends and complete comments in front of a script only move its lines. The script is a module
with them if and only if it is one without them. Then it has the same callables in the same order, and
otherwise the same error, always as many lines further down as there are line breaks in front. -/
theorem leading_trivia_only_lowers_lines (file : String) {t s : List Char} (ht : IsTrivia t)
    (htm : t.head? ≠ some '\ufeff') (hsm : s.head? ≠ some '\ufeff') (hbang : ¬ ['#', '!'] <+: s)
    (hjoin : ¬ SplitsBreak t s)
    (hsize : (String.ofList (t ++ s)).utf8ByteSize ≤ 2 ^ 32 - 2) :
    match parse file s, parse file (t ++ s) with
    | .ok m, .ok m' =>
      List.Forall₂ (CallableRecord.Lowered (lineBreaks t)) (callableRecords file s m)
        (callableRecords file (t ++ s) m')
    | .error e, .error e' => e.Lowered (lineBreaks t) e'
    | _, _ => False := by
  have hread : Module.read (t ++ s) = Module.read s := Module.read_append ht htm hsm hbang
  have hwithin : Within s.length (Module.read s) := Module.read_within s
  unfold parse
  rw [hread]
  by_cases hs : s = []
  · subst hs
    rw [Module.read_nil]
    exact .nil
  cases hm : Module.read s with
  | error fault =>
    rw [hm] at hwithin
    exact Fault.inFile_lowered hjoin hsize hs (Within.fault_pos (within_error.mp hwithin))
  | ok m =>
    rw [hm] at hwithin
    have hcallables : Within s.length (discover m) := discover_within (within_ok.mp hwithin)
    refine List.forall₂_map_left_iff.mpr (List.forall₂_map_right_iff.mpr ?_)
    exact List.forall₂_same.mpr fun c hc =>
      Callable.record_lowered hjoin hsize hs (hcallables c hc).2

/-- A comment to the end of its line, a comment over two lines and a blank. -/
def sampleFront : List Char := ['/', '/', 'a', '\n', '/', '*', 'b', '\r', '\n', '*', '/', ' ']

def sampleScript : List Char := "const f = a => a;\nfunction g() \x7b\n\x7d\n".toList

theorem isTrivia_sampleFront : IsTrivia sampleFront :=
  have hfirst : ∀ d ∈ ['a'], d ∉ lineTerminators := by simp [lineTerminators]
  have hsecond : ¬ ['*', '/'] <:+: ['b', '\r', '\n'] := by decide +kernel
  .lineComment hfirst (by decide) (.blockComment hsecond (.blank (by decide) .nil))

theorem leading_trivia_only_lowers_lines_sampleScript :
    (parse "a.js" sampleScript).map (callableRecords "a.js" sampleScript) =
        .ok [⟨"f", "a.js", 1, .arrowFunction⟩, ⟨"g", "a.js", 2, .functionDeclaration⟩] ∧
      lineBreaks sampleFront = 2 ∧
      match parse "a.js" sampleScript, parse "a.js" (sampleFront ++ sampleScript) with
      | .ok m, .ok m' =>
        List.Forall₂ (CallableRecord.Lowered (lineBreaks sampleFront))
          (callableRecords "a.js" sampleScript m)
          (callableRecords "a.js" (sampleFront ++ sampleScript) m')
      | .error e, .error e' => e.Lowered (lineBreaks sampleFront) e'
      | _, _ => False :=
  ⟨by decide +kernel, by decide,
    leading_trivia_only_lowers_lines (s := sampleScript) "a.js" isTrivia_sampleFront (by decide)
      (by decide +kernel) (by decide +kernel) (by decide +kernel) (by decide +kernel)⟩

end Census
