import Mathlib
import Census.Script.Grammar.Function
import Census.Proofs.Script.Grammar.Pattern
/-!
Parameters, bodies and functions keep to the characters that are left. A function takes the parenthesis of its
parameters, so that it cannot start at the end of the text: that is why it is asked that no more is left to
be read than where it starts.
-/

set_option mvcgen.warning false

namespace Census.Script

open Census.Text (Pos)
open Std.Do
open Parse

variable {n k start : Pos} {g : Grammar} {params statements : List Node}

/-! ## Parameters -/

@[spec] theorem plainParameter_keeps (hg : g.Keeps n) (ctx : Context) :
    Keeps n k (plainParameter g ctx) := by
  mvcgen [plainParameter]
  all_goals grind -linarith

@[spec] theorem restParameter_keeps (hg : g.Keeps n) (ctx : Context) (readsDefault : Bool)
    (h : start ≤ n) : Keeps n k (restParameter g ctx readsDefault start) := by
  mvcgen [restParameter]
  all_goals grind -linarith

@[spec] theorem parameterList_keeps (hg : g.Keeps n) (ctx : Context) (restReadsDefault : Bool) :
    Keeps n k (parameterList g ctx restReadsDefault) := by
  mvcgen [parameterList]
  all_goals grind -linarith

/-! ## Bodies -/

@[spec] theorem statementsToBrace_keeps (hg : g.Keeps n) (ctx : Context) :
    Keeps n k (statementsToBrace g ctx) := by
  mvcgen [statementsToBrace]
  all_goals grind -linarith

@[spec] theorem block_keeps (hg : g.Keeps n) (ctx : Context) : Keeps n k (block g ctx) := by
  mvcgen [block]
  all_goals grind -linarith

@[spec] theorem checkStrictDirective_keeps (h : Within n statements) :
    Keeps n k (checkStrictDirective params statements) := by
  have hdirectives : Within n (statements.takeWhile isDirective) :=
    fun d hd => h d (List.takeWhile_subset _ hd)
  mvcgen [checkStrictDirective]
  all_goals grind -linarith

@[spec] theorem functionBody_keeps (hg : g.Keeps n) (ctx : Context)
    (isAsync isGenerator isArrow : Bool) :
    Keeps n k (functionBody g ctx isAsync isGenerator isArrow params) := by
  mvcgen [functionBody]
  all_goals grind -linarith

@[spec] theorem arrowBody_keeps (hg : g.Keeps n) (ctx : Context) (isAsync : Bool) :
    Keeps n k (arrowBody g ctx isAsync params) := by
  mvcgen [arrowBody]
  all_goals grind -linarith

/-! ## Functions -/

instance : Positioned Arity :=
  ⟨fun n arity => ∀ key, arity = .getter key ∨ arity = .setter key → key ≤ n⟩

@[grind =] theorem within_arity {arity : Arity} :
    Within n arity ↔ ∀ key, arity = .getter key ∨ arity = .setter key → key ≤ n :=
  Iff.rfl

@[spec] theorem checkArity_keeps {arity : Arity} (ha : Within n arity) (h : Within n params) :
    Keeps n k (checkArity arity params) := by
  unfold checkArity
  cases arity with
  | getter key =>
    mvcgen
    all_goals grind -linarith
  | setter key =>
    cases params with
    | nil =>
      mvcgen
      all_goals grind -linarith
    | cons p more =>
      mvcgen
      all_goals grind -linarith
  | any => mvcgen
  | constructor => mvcgen

@[spec] theorem parametersAndBody_takes (hg : g.Keeps n) (ctx : Context)
    (isAsync isGenerator : Bool) {arity : Arity} (ha : Within n arity) :
    Takes n k (parametersAndBody g ctx isAsync isGenerator arity) := by
  unfold parametersAndBody
  -- Whether a rest parameter reads a default is settled by the case.
  cases arity
  all_goals mvcgen
  all_goals grind -linarith

@[spec] theorem methodRest_takes (hg : g.Keeps n) (ctx : Context) (isAsync isGenerator : Bool)
    {arity : Arity} (ha : Within n arity) :
    Takes n k (methodRest g ctx isAsync isGenerator arity) :=
  parametersAndBody_takes hg _ _ _ ha

@[spec] theorem functionHead_keeps : Keeps n k functionHead := by
  mvcgen [functionHead]
  all_goals grind -linarith

@[spec] theorem functionRest_takes (hg : g.Keeps n) (ctx : Context)
    (isAsync isGenerator : Bool) : Takes n k (functionRest g ctx isAsync isGenerator) :=
  parametersAndBody_takes hg _ _ _ (by simp [within_arity])

@[spec] theorem atAsyncFunction_keeps : Keeps n k atAsyncFunction := by
  mvcgen [atAsyncFunction]
  all_goals grind -linarith

@[spec] theorem functionDeclaration_keeps (hg : g.Keeps n) (ctx : Context) (h : start ≤ n)
    (hk : k ≤ start) (isAsync : Bool) : Keeps n k (functionDeclaration g ctx start isAsync) := by
  mvcgen [functionDeclaration]
  all_goals grind -linarith

@[spec] theorem asyncFunctionDeclaration_keeps (hg : g.Keeps n) (ctx : Context) :
    Keeps n k (asyncFunctionDeclaration g ctx) := by
  refine keeps_of_start fun start h => ?_
  mvcgen [asyncFunctionDeclaration, here, -here_keeps]
  all_goals grind -linarith

@[spec] theorem functionExpression_keeps (hg : g.Keeps n) (ctx : Context) (h : start ≤ n)
    (hk : k ≤ start) (isAsync : Bool) : Keeps n k (functionExpression g ctx start isAsync) := by
  mvcgen [functionExpression]
  all_goals grind -linarith

end Census.Script
