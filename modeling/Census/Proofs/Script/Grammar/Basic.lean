import Mathlib
import Census.Script.Grammar.Basic
import Census.Proofs.Script.Grammar.State
/-!
A grammar that keeps to the characters that are left, and the readers of names, keys and lists in braces
that do so with such a grammar.
-/

set_option mvcgen.warning false

namespace Census.Script

open Census.Text (Pos)
open Std.Do
open Parse

variable {n k : Pos} {g : Grammar}

/-- Every recursive part of a grammar keeps to the last characters of a text. -/
structure Grammar.Keeps (n : Pos) (g : Grammar) : Prop where
  assignment {k : Pos} (ctx : Context) : Script.Keeps n k (g.assignment ctx)
  unary {k : Pos} (ctx : Context) : Script.Keeps n k (g.unary ctx)
  binaryTail {k : Pos} (ctx : Context) {left : Node} (h : Within n left) (level : Nat) :
    Script.Keeps n k (g.binaryTail ctx left level)
  leftHand {k : Pos} (ctx : Context) : Script.Keeps n k (g.leftHand ctx)
  construction {k : Pos} (ctx : Context) : Script.Keeps n k (g.construction ctx)
  pattern {k : Pos} (ctx : Context) (refusesLet : Bool) : Script.Keeps n k (g.pattern ctx refusesLet)
  asPattern {k : Pos} (ctx : Context) (use : PatternUse) {node : Node} (h : Within n node) :
    Script.Keeps n k (g.asPattern ctx use node)
  statement {k : Pos} (ctx : Context) (declares : Bool) : Script.Keeps n k (g.statement ctx declares)

attribute [spec] Grammar.Keeps.assignment Grammar.Keeps.unary Grammar.Keeps.binaryTail
  Grammar.Keeps.leftHand Grammar.Keeps.construction Grammar.Keeps.pattern
  Grammar.Keeps.asPattern Grammar.Keeps.statement

/-! ## Expressions between others -/

@[spec] theorem Grammar.expression_keeps (hg : g.Keeps n) (ctx : Context) :
    Script.Keeps n k (g.expression ctx) := by
  mvcgen [Grammar.expression]
  all_goals grind -linarith

@[spec] theorem Grammar.anyExpression_keeps (hg : g.Keeps n) (ctx : Context) :
    Script.Keeps n k (g.anyExpression ctx) :=
  Grammar.expression_keeps hg _

@[spec] theorem Grammar.anyAssignment_keeps (hg : g.Keeps n) (ctx : Context) :
    Script.Keeps n k (g.anyAssignment ctx) :=
  hg.assignment _

/-! ## Names and keys -/

theorem isToken_of_name? {kind : Kind} {name : Name} (h : kind.name? = some name) :
    kind.isToken = true := by
  cases kind with
  | keyword | contextual | identifier => rfl
  | _ => cases h

@[spec] theorem anyName_keeps : KeepsAnd n k (fun ident => 0 < ident.start) anyName := by
  have hstart (s : State) (hs : s.AllWithin n k) (name : Name)
      (hname : s.token.kind.name? = some name) : 0 < s.token.start ∧ s.token.start ≤ n :=
    ⟨Within.start_pos hs.token (isToken_of_name? hname), Within.token_start hs.token⟩
  mvcgen [anyName, kind, here, -kind_keeps, -here_keeps]
  all_goals grind -linarith [Ident.start]

@[spec] theorem identifier_keeps (ctx : Context) : Keeps n k (identifier ctx) := by
  mvcgen [identifier]
  all_goals grind -linarith

@[spec] theorem bindingName_keeps (ctx : Context) (refusesLet : Bool) :
    Keeps n k (bindingName ctx refusesLet) := by
  mvcgen [bindingName]
  all_goals grind -linarith

@[spec] theorem optionalBindingName_keeps (ctx : Context) (refusesLet : Bool) :
    Keeps n k (optionalBindingName ctx refusesLet) := by
  mvcgen [optionalBindingName]
  all_goals grind -linarith

@[spec] theorem maybeBindingName_keeps (ctx : Context) (required refusesLet : Bool) :
    Keeps n k (maybeBindingName ctx required refusesLet) := by
  mvcgen [maybeBindingName]
  all_goals grind -linarith

@[spec] theorem privateName_keeps :
    KeepsAnd n k (fun key => key.isKey = true) privateName := by
  mvcgen [privateName]
  all_goals grind -linarith

@[spec] theorem stringLiteral?_keeps : Keeps n k stringLiteral? := by
  mvcgen [stringLiteral?]
  all_goals grind -linarith

@[spec] theorem propertyKey_keeps (hg : g.Keeps n) (ctx : Context) :
    KeepsAnd n k (fun key => key.isKey = true) (propertyKey g ctx) := by
  mvcgen [propertyKey]
  all_goals grind -linarith

@[spec] theorem braced_keeps {member : Parse Node} (hm : Keeps n k member) :
    Keeps n k (braced member) := by
  mvcgen [braced, hm]
  all_goals grind -linarith

end Census.Script
