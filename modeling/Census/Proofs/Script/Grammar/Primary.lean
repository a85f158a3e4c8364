import Mathlib
import Census.Script.Grammar.Expression
import Census.Proofs.Script.Grammar.Class
/-!
Literals, templates, and what starts with a name or a parenthesis keep to the characters that are left.
-/

set_option mvcgen.warning false

namespace Census.Script

open Census.Text (Pos)
open Std.Do
open Parse

variable {n k start : Pos} {g : Grammar} {object key callee left : Node} {items params : List Node}

@[spec] theorem atOperatorSign_keeps : Keeps n k atOperatorSign := by
  mvcgen [atOperatorSign]
  all_goals grind -linarith

@[spec] theorem maybeSpread_keeps (hg : g.Keeps n) (ctx : Context) :
    Keeps n k (maybeSpread g ctx) := by
  mvcgen [maybeSpread]
  all_goals grind -linarith

@[spec] theorem arguments_keeps (hg : g.Keeps n) (ctx : Context) :
    Keeps n k (arguments g ctx) := by
  mvcgen [arguments]
  all_goals grind -linarith

/-! ## Objects, lists and templates -/

@[spec] theorem arrayLiteral_keeps (hg : g.Keeps n) (ctx : Context) :
    Keeps n k (arrayLiteral g ctx) := by
  mvcgen [arrayLiteral]
  all_goals grind -linarith

@[spec] theorem modifiedObjectMember_keeps (hg : g.Keeps n) (ctx : Context) (h : start ≤ n)
    (word : String) : Keeps n k (modifiedObjectMember g ctx start word) := by
  mvcgen [modifiedObjectMember]
  all_goals grind -linarith

@[spec] theorem objectMember_keeps (hg : g.Keeps n) (ctx : Context) :
    Keeps n k (objectMember g ctx) := by
  mvcgen [objectMember]
  all_goals grind -linarith

@[spec] theorem objectLiteral_keeps (hg : g.Keeps n) (ctx : Context) :
    Keeps n k (objectLiteral g ctx) := by
  mvcgen [objectLiteral]
  all_goals grind -linarith

@[spec] theorem passStretch_keeps (tagged : Bool) {bad : Option Fault} (h : Within n bad) :
    Keeps n k (passStretch tagged bad) := by
  mvcgen [passStretch]
  all_goals grind -linarith

@[spec] theorem templateHoles_keeps (hg : g.Keeps n) (ctx : Context) (tagged : Bool) :
    Keeps n k (templateHoles g ctx tagged) := by
  have hread (cs : List Char) (pos : Pos) (h : pos ≤ n) : Within n (readTemplate false cs pos) :=
    readTemplate_within h false
  have hend := readTemplate_nil false
  mvcgen [templateHoles]
  all_goals grind -linarith

@[spec] theorem template_keeps (hg : g.Keeps n) (ctx : Context) (tagged : Bool) :
    Keeps n k (template g ctx tagged) := by
  mvcgen [template]
  all_goals grind -linarith

@[spec] theorem atTemplate_keeps : Keeps n k atTemplate := by
  mvcgen [atTemplate]
  all_goals grind -linarith

@[spec] theorem regExpLiteral_keeps : Keeps n k regExpLiteral := by
  have hread (cs : List Char) (pos : Pos) (h : pos ≤ n) : Within n (readRegExp cs pos) :=
    readRegExp_within h
  have hend := readRegExp_nil
  mvcgen [regExpLiteral]
  all_goals grind -linarith

end Census.Script
