import Mathlib
import Census.Script.Grammar.Statement
import Census.Proofs.Script.Grammar.Expression
/-!
Statements, variables and loops keep to the characters that are left.
-/

set_option mvcgen.warning false

namespace Census.Script

open Census.Text (Pos)
open Std.Do
open Parse

variable {n k start : Pos} {g : Grammar} {node value target : Node} {nodes : List Node} {label : Ident}

/-! ## Variables -/

instance : Positioned VariableWord := ⟨fun _ _ => True⟩

@[grind .] theorem within_variableWord (word : VariableWord) : Within n word := trivial

@[spec] theorem variableWord?_keeps : Keeps n k variableWord? := by
  mvcgen [variableWord?]
  all_goals grind -linarith

@[spec] theorem atLoopWord_keeps : Keeps n k atLoopWord := by
  mvcgen [atLoopWord]
  all_goals grind -linarith

@[spec] theorem declarator_keeps (hg : g.Keeps n) (ctx : Context) (word : VariableWord)
    (inLoopHead : Bool) : Keeps n k (declarator g ctx word inLoopHead) := by
  mvcgen [declarator]
  all_goals grind -linarith

@[spec] theorem declarators_keeps (hg : g.Keeps n) (ctx : Context) (word : VariableWord)
    (inLoopHead : Bool) {trailingAt : Parse Pos} (ht : Keeps n k trailingAt) :
    Keeps n k (declarators g ctx word inLoopHead trailingAt) := by
  mvcgen [declarators, ht]
  all_goals grind -linarith

@[spec] theorem skipStatement_keeps : Keeps n k skipStatement := by
  mvcgen [skipStatement]
  all_goals grind -linarith

@[spec] theorem variableDeclaration_keeps (hg : g.Keeps n) (ctx : Context) (word : VariableWord)
    (inLoopHead : Bool) : Keeps n k (variableDeclaration g ctx word inLoopHead) := by
  mvcgen [variableDeclaration]
  all_goals grind -linarith

@[spec] theorem usingDeclaration?_keeps (hg : g.Keeps n) (ctx : Context) (h : start ≤ n) :
    Keeps n k (usingDeclaration? g ctx start) := by
  mvcgen [usingDeclaration?]
  all_goals grind -linarith

/-! ## Simple statements -/

@[spec] theorem expressionInParentheses_keeps (hg : g.Keeps n) (ctx : Context) :
    Keeps n k (expressionInParentheses g ctx) := by
  mvcgen [expressionInParentheses]
  all_goals grind -linarith

@[spec] theorem body_keeps (hg : g.Keeps n) (ctx : Context) : Keeps n k (body g ctx) :=
  hg.statement _ _

@[spec] theorem loopBody_keeps (hg : g.Keeps n) (ctx : Context) : Keeps n k (loopBody g ctx) :=
  hg.statement _ _

@[spec] theorem jump_keeps (ctx : Context) (isBreak : Bool) : Keeps n k (jump ctx isBreak) := by
  mvcgen [jump]
  all_goals grind -linarith

@[spec] theorem debuggerStatement_keeps : Keeps n k debuggerStatement := by
  mvcgen [debuggerStatement]
  all_goals grind -linarith

@[spec] theorem throwStatement_keeps (hg : g.Keeps n) (ctx : Context) :
    Keeps n k (throwStatement g ctx) := by
  mvcgen [throwStatement]
  all_goals grind -linarith

@[spec] theorem returnRest_keeps (hg : g.Keeps n) (ctx : Context) (h : start ≤ n) :
    Keeps n k (returnRest g ctx start) := by
  mvcgen [returnRest]
  all_goals grind -linarith

@[spec] theorem returnStatement_keeps (hg : g.Keeps n) (ctx : Context) :
    Keeps n k (returnStatement g ctx) := by
  mvcgen [returnStatement]
  all_goals grind -linarith

@[spec] theorem conditionalStatement_keeps (hg : g.Keeps n) (ctx : Context) :
    Keeps n k (conditionalStatement g ctx) := by
  mvcgen [conditionalStatement]
  all_goals grind -linarith

@[spec] theorem whileLoop_keeps (hg : g.Keeps n) (ctx : Context) :
    Keeps n k (whileLoop g ctx) := by
  mvcgen [whileLoop]
  all_goals grind -linarith

@[spec] theorem doLoop_keeps (hg : g.Keeps n) (ctx : Context) : Keeps n k (doLoop g ctx) := by
  mvcgen [doLoop]
  all_goals grind -linarith

@[spec] theorem withStatement_keeps (hg : g.Keeps n) (ctx : Context) :
    Keeps n k (withStatement g ctx) := by
  mvcgen [withStatement]
  all_goals grind -linarith

/-! ## Switches and handlers -/

@[spec] theorem caseStatements_keeps (hg : g.Keeps n) (ctx : Context) :
    Keeps n k (caseStatements g ctx) := by
  mvcgen [caseStatements]
  all_goals grind -linarith

@[spec] theorem switchCases_keeps (hg : g.Keeps n) (ctx : Context) :
    Keeps n k (switchCases g ctx) := by
  mvcgen [switchCases]
  all_goals grind -linarith

@[spec] theorem switchStatement_keeps (hg : g.Keeps n) (ctx : Context) :
    Keeps n k (switchStatement g ctx) := by
  mvcgen [switchStatement]
  all_goals grind -linarith

@[spec] theorem handler?_keeps (hg : g.Keeps n) (ctx : Context) : Keeps n k (handler? g ctx) := by
  mvcgen [handler?]
  all_goals grind -linarith

@[spec] theorem finalizer?_keeps (hg : g.Keeps n) (ctx : Context) :
    Keeps n k (finalizer? g ctx) := by
  mvcgen [finalizer?]
  all_goals grind -linarith

@[spec] theorem tryStatement_keeps (hg : g.Keeps n) (ctx : Context) :
    Keeps n k (tryStatement g ctx) := by
  mvcgen [tryStatement]
  all_goals grind -linarith

@[spec] theorem strayHandler_keeps (hg : g.Keeps n) (ctx : Context) :
    Keeps n k (strayHandler g ctx) := by
  mvcgen [strayHandler]
  all_goals grind -linarith

/-! ## Loops with a head -/

instance : Positioned LoopHead :=
  ⟨fun n head =>
    match head with
    | .steps parts => Within n parts
    | .over _ target value => Within n target ∧ Within n value⟩

@[grind =] theorem within_steps {parts : List Node} :
    Within n (LoopHead.steps parts) ↔ Within n parts :=
  Iff.rfl

@[grind =] theorem within_over {isOf : Bool} :
    Within n (LoopHead.over isOf target value) ↔ Within n target ∧ Within n value :=
  Iff.rfl

@[spec] theorem stepsHead_keeps (hg : g.Keeps n) (ctx : Context) (h : Within n nodes) :
    Keeps n k (stepsHead g ctx nodes) := by
  mvcgen [stepsHead]
  all_goals grind -linarith

@[spec] theorem overHead_keeps (hg : g.Keeps n) (ctx : Context) (h : Within n target) :
    Keeps n k (overHead g ctx target) := by
  mvcgen [overHead]
  all_goals grind -linarith

@[spec] theorem checkLoopDeclaration_keeps (h : Within n node) :
    Keeps n k (checkLoopDeclaration node) := by
  have hparts : Within n node.parts := Within.node_parts h
  mvcgen [checkLoopDeclaration]
  all_goals grind -linarith

@[spec] theorem loopHead_keeps (hg : g.Keeps n) (ctx : Context) : Keeps n k (loopHead g ctx) := by
  mvcgen [loopHead]
  all_goals grind -linarith

@[spec] theorem forLoop_keeps (hg : g.Keeps n) (ctx : Context) : Keeps n k (forLoop g ctx) := by
  mvcgen [forLoop]
  all_goals grind -linarith

/-! ## Statements -/

@[spec] theorem labelled_keeps (hg : g.Keeps n) (ctx : Context) (h : Within n label) :
    Keeps n k (labelled g ctx label) := by
  refine keeps_of_start fun start hstart => ?_
  mvcgen [labelled, here, -here_keeps]
  all_goals grind -linarith

@[spec] theorem endExpression_keeps (hg : g.Keeps n) (ctx : Context) (h : Within n value) :
    Keeps n k (endExpression g ctx value) := by
  mvcgen [endExpression]
  all_goals grind -linarith

@[spec] theorem expressionOrLabel_keeps (hg : g.Keeps n) (ctx : Context) :
    Keeps n k (expressionOrLabel g ctx) := by
  mvcgen [expressionOrLabel]
  all_goals grind -linarith

@[spec] theorem importStatement_keeps (hg : g.Keeps n) (ctx : Context) :
    Keeps n k (importStatement g ctx) := by
  mvcgen [importStatement]
  all_goals grind -linarith

@[spec] theorem awaitUsing_keeps (hg : g.Keeps n) (ctx : Context) :
    Keeps n k (awaitUsing g ctx) := by
  mvcgen [awaitUsing]
  all_goals grind -linarith

@[spec] theorem emptyStatement_keeps : Keeps n k emptyStatement := by
  mvcgen [emptyStatement]
  all_goals grind -linarith

@[spec] theorem declaration_keeps (includesDeclarations : Bool) {read : Parse Node}
    (hr : Keeps n k read) : Keeps n k (declaration includesDeclarations read) := by
  mvcgen [declaration, hr]
  all_goals grind -linarith

@[spec] theorem wordStatement_keeps (hg : g.Keeps n) (ctx : Context)
    (includesDeclarations : Bool) (w : Contextual) :
    Keeps n k (wordStatement g ctx includesDeclarations w) := by
  mvcgen [wordStatement]
  all_goals grind -linarith

@[spec] theorem statementNode_keeps (hg : g.Keeps n) (ctx : Context)
    (includesDeclarations : Bool) : Keeps n k (statementNode g ctx includesDeclarations) := by
  refine keeps_of_start fun start hstart => ?_
  mvcgen [statementNode, here, -here_keeps]
  all_goals grind -linarith

end Census.Script
