import Mathlib
import Census.Script.Grammar.Pattern
import Census.Proofs.Script.Grammar.Basic
/-!
Patterns keep to the characters that are left, those that are read as such and those that are made from an
expression within these characters.
-/

set_option mvcgen.warning false

namespace Census.Script

open Census.Text (Pos)
open Std.Do
open Parse

variable {n k : Pos} {g : Grammar} {node : Node} {nodes : List Node} {comma : Option Pos}

/-! ## Patterns as such -/

@[spec] theorem patternElement_keeps (hg : g.Keeps n) (ctx : Context) :
    Keeps n k (patternElement g ctx) := by
  mvcgen [patternElement]
  all_goals grind -linarith

@[spec] theorem arrayPattern_keeps (hg : g.Keeps n) (ctx : Context) :
    Keeps n k (arrayPattern g ctx) := by
  mvcgen [arrayPattern]
  all_goals grind -linarith

@[spec] theorem patternMember_keeps (hg : g.Keeps n) (ctx : Context) :
    Keeps n k (patternMember g ctx) := by
  mvcgen [patternMember]
  all_goals grind -linarith

@[spec] theorem checkRestMembers_keeps (hc : Within n comma) (h : Within n nodes) :
    Keeps n k (checkRestMembers comma nodes) := by
  induction nodes with
  | nil => mvcgen [checkRestMembers]
  | cons m more ih =>
    cases more with
    | nil =>
      mvcgen [checkRestMembers]
      all_goals grind -linarith
    | cons next more =>
      mvcgen [checkRestMembers, ih]
      all_goals grind -linarith

@[spec] theorem objectPattern_keeps (hg : g.Keeps n) (ctx : Context) :
    Keeps n k (objectPattern g ctx) := by
  mvcgen [objectPattern]
  all_goals grind -linarith

@[spec] theorem bindingPattern_keeps (hg : g.Keeps n) (ctx : Context) (refusesLet : Bool) :
    Keeps n k (bindingPattern g ctx refusesLet) := by
  mvcgen [bindingPattern]
  all_goals grind -linarith

/-! ## Patterns made from expressions -/

@[spec] theorem checkTarget_keeps (h : Within n node) : Keeps n k (checkTarget node) := by
  mvcgen [checkTarget]
  all_goals grind -linarith

@[spec] theorem checkRestValue_keeps {pos : Pos} (h : pos ≤ n) (node : Node) :
    Keeps n k (checkRestValue pos node) := by
  mvcgen [checkRestValue]
  all_goals grind -linarith

@[spec] theorem reportComma_keeps (h : Within n comma) : Keeps n k (reportComma comma) := by
  mvcgen [reportComma]
  all_goals grind -linarith

@[spec] theorem memberAsPattern_keeps (hg : g.Keeps n) (ctx : Context) (use : PatternUse)
    (hc : Within n comma) (isLast : Bool) (h : Within n node) :
    Keeps n k (memberAsPattern g ctx use comma isLast node) := by
  mvcgen [memberAsPattern]
  all_goals grind -linarith

@[spec] theorem membersAsPattern_keeps (hg : g.Keeps n) (ctx : Context) (use : PatternUse)
    (hc : Within n comma) (h : Within n nodes) :
    Keeps n k (membersAsPattern g ctx use comma nodes) := by
  induction nodes with
  | nil => mvcgen [membersAsPattern]
  | cons m more ih =>
    mvcgen [membersAsPattern, ih]
    all_goals grind -linarith

@[spec] theorem elementsAsPattern_keeps (hg : g.Keeps n) (ctx : Context) (use : PatternUse)
    (hc : Within n comma) (h : Within n nodes) :
    Keeps n k (elementsAsPattern g ctx use comma nodes) := by
  induction nodes with
  | nil => mvcgen [elementsAsPattern]
  | cons m more ih =>
    mvcgen [elementsAsPattern, ih]
    all_goals grind -linarith

@[spec] theorem notAPattern_keeps (h : Within n node) : Keeps n k (notAPattern node) := by
  mvcgen [notAPattern]
  all_goals grind -linarith

@[spec] theorem formAsPattern_keeps (hg : g.Keeps n) (ctx : Context) (use : PatternUse)
    (h : Within n node) : Keeps n k (formAsPattern g ctx use node) := by
  mvcgen [formAsPattern]
  all_goals grind -linarith

@[spec] theorem expressionAsPattern_keeps (hg : g.Keeps n) (ctx : Context) (use : PatternUse)
    (h : Within n node) : Keeps n k (expressionAsPattern g ctx use node) := by
  mvcgen [expressionAsPattern]
  all_goals grind -linarith

mutual

@[spec] theorem reportRestricted_keeps :
    ∀ {node : Node}, Within n node → Keeps n k (reportRestricted node)
  | .mk construct span parts, h => by
    have hparts : Within n parts := (within_node.mp h).2.2.2
    have hall := reportAll_keeps hparts
    have hsecond := reportSecond_keeps hparts
    have hfirst := reportFirst_keeps hparts
    unfold reportRestricted
    mvcgen [hall, hsecond, hfirst]
    all_goals grind -linarith

theorem reportAll_keeps :
    ∀ {nodes : List Node}, Within n nodes → Keeps n k (reportRestricted.reportAll nodes)
  | [], _ => by mvcgen [reportRestricted.reportAll]
  | p :: ps, h => by
    have hp := reportRestricted_keeps (within_cons.mp h).1
    have hps := reportAll_keeps (within_cons.mp h).2
    mvcgen [reportRestricted.reportAll, hp, hps]
    all_goals grind -linarith

theorem reportFirst_keeps :
    ∀ {nodes : List Node}, Within n nodes → Keeps n k (reportRestricted.reportFirst nodes)
  | [], _ => by mvcgen [reportRestricted.reportFirst]
  | p :: ps, h => by
    have hp := reportRestricted_keeps (within_cons.mp h).1
    mvcgen [reportRestricted.reportFirst, hp]

theorem reportSecond_keeps :
    ∀ {nodes : List Node}, Within n nodes → Keeps n k (reportRestricted.reportSecond nodes)
  | _ :: p :: _, h => by
    have hp := reportRestricted_keeps (within_cons.mp (within_cons.mp h).2).1
    mvcgen [reportRestricted.reportSecond, hp]
  | [], _ => by mvcgen [reportRestricted.reportSecond]
  | [_], _ => by mvcgen [reportRestricted.reportSecond]

end

end Census.Script
