import Mathlib
import Census.Proofs.Script.Grammar.Primary
/-!
Arrow functions, members, calls and operators keep to the characters that are left.
-/

set_option mvcgen.warning false

namespace Census.Script

open Census.Text (Pos)
open Std.Do
open Parse

variable {n k start : Pos} {g : Grammar} {object key callee left : Node} {items params : List Node}
  {comma : Option Pos}

/-! ## Names, parentheses and arrow functions -/

@[spec] theorem arrowNode_keeps (hg : g.Keeps n) (ctx : Context) (h : start ≤ n)
    (hs : 0 < start) (isAsync : Bool) (hp : Within n params) : Keeps n k (arrowNode g ctx start isAsync params) := by
  mvcgen [arrowNode]
  all_goals grind -linarith

@[spec] theorem nameOrArrow_keeps (hg : g.Keeps n) (ctx : Context) (mayBeArrow : Bool) :
    Keeps n k (nameOrArrow g ctx mayBeArrow) := by
  refine keeps_of_start fun start h => ?_
  mvcgen [nameOrArrow, here, -here_keeps]
  all_goals grind -linarith

@[spec] theorem parenthesizedItem_keeps (hg : g.Keeps n) (ctx : Context) :
    Keeps n k (parenthesizedItem g ctx) := by
  refine keeps_of_start fun start h => ?_
  mvcgen [parenthesizedItem, here, -here_keeps]
  all_goals grind -linarith

@[spec] theorem parenthesizedItems_keeps (hg : g.Keeps n) (ctx : Context) :
    Keeps n k (parenthesizedItems g ctx) := by
  mvcgen [parenthesizedItems]
  all_goals grind -linarith

@[spec] theorem itemsAsParameters_keeps (hg : g.Keeps n) (ctx : Context) (hc : Within n comma)
    (h : Within n items) : Keeps n k (itemsAsParameters g ctx comma items) := by
  fun_induction itemsAsParameters g ctx comma items with
  | case1 => mvcgen
  | case2 span value =>
    mvcgen
    all_goals grind -linarith
  | case3 more span parts _ ih =>
    have hmore := ih (within_cons.mp h).2
    mvcgen [hmore]
    all_goals grind -linarith
  | case4 item more _ _ ih =>
    have hmore := ih (within_cons.mp h).2
    mvcgen [hmore]
    all_goals grind -linarith

@[spec] theorem arrowAfterItems_keeps (hg : g.Keeps n) (ctx : Context) (h : start ≤ n)
    (hs : 0 < start) (isAsync mayBeArrow : Bool) (hi : Within n items) (hc : Within n comma) :
    Keeps n k (arrowAfterItems g ctx start isAsync mayBeArrow items comma) := by
  mvcgen [arrowAfterItems]
  all_goals grind -linarith

@[spec] theorem itemsAsExpression_keeps (h : start ≤ n) (hi : Within n items) :
    Keeps n k (itemsAsExpression start items) := by
  have hfirst (c : Construct) (span : Span) (parts : List Node)
      (hnode : Within n (Node.mk c span parts)) :
      (parts.head?.map Node.start).getD span.start ≤ n :=
    Within.start_getD (Within.head? (within_node.mp hnode).2.2.2) (Within.node_start hnode)
  mvcgen [itemsAsExpression]
  all_goals grind -linarith

@[spec] theorem parenthesized_keeps (hg : g.Keeps n) (ctx : Context) (mayBeArrow : Bool)
    {asyncAt : Option Node} (ha : Within n asyncAt)
    (hp : ∀ word, asyncAt = some word → 0 < word.start) :
    Keeps n k (parenthesized g ctx mayBeArrow asyncAt) := by
  refine keeps_of_start fun start h => ?_
  have hstart : (asyncAt.map Node.start).getD start ≤ n := Within.start_getD ha h
  have hpos : 0 < start → 0 < (asyncAt.map Node.start).getD start := by
    cases asyncAt with
    | none => exact id
    | some word => exact fun _ => hp word rfl
  mvcgen [parenthesized, here, -here_keeps]
  all_goals grind -linarith

@[spec] theorem asyncExpression_keeps (hg : g.Keeps n) (ctx : Context) (mayBeArrow : Bool) :
    Keeps n k (asyncExpression g ctx mayBeArrow) := by
  refine keeps_of_start fun start h => ?_
  mvcgen [asyncExpression, here, -here_keeps]
  all_goals grind -linarith

@[spec] theorem primary_keeps (hg : g.Keeps n) (ctx : Context) : Keeps n k (primary g ctx) := by
  refine keeps_of_start fun start h => ?_
  mvcgen [primary, here, -here_keeps]
  all_goals grind -linarith

/-! ## Members, calls and constructions -/

@[spec] theorem checkSuper_keeps (ctx : Context) (h : Within n object) (chained noCall : Bool) :
    Keeps n k (checkSuper ctx object chained noCall) := by
  mvcgen [checkSuper]
  all_goals grind -linarith

@[spec] theorem memberNode_keeps (ctx : Context) (h : Within n object) (hk : Within n key)
    (chained noCall : Bool) : Keeps n k (memberNode ctx object key chained noCall) := by
  mvcgen [memberNode]
  all_goals grind -linarith

@[spec] theorem callNode_keeps (h : Within n callee) (hi : Within n items) (chained : Bool) :
    Keeps n k (callNode callee items chained) := by
  mvcgen [callNode]
  all_goals grind -linarith

@[spec] theorem memberKey_keeps : Keeps n k memberKey := by
  mvcgen [memberKey]
  all_goals grind -linarith

@[spec] theorem subscript?_keeps (hg : g.Keeps n) (ctx : Context) (h : Within n object)
    (noCall : Bool) : Keeps n k (subscript? g ctx object noCall) := by
  mvcgen [subscript?]
  all_goals grind -linarith

@[spec] theorem subscripts_keeps (hg : g.Keeps n) (ctx : Context) (noCall : Bool)
    (h : Within n object) : Keeps n k (subscripts g ctx noCall object) := by
  mvcgen [subscripts]
  all_goals grind -linarith

@[spec] theorem importExpression_keeps (hg : g.Keeps n) (ctx : Context) (h : start ≤ n)
    (noCall : Bool) : Keeps n k (importExpression g ctx start noCall) := by
  mvcgen [importExpression]
  all_goals grind -linarith

@[spec] theorem superExpression_keeps (hg : g.Keeps n) (ctx : Context) (h : start ≤ n)
    (noCall : Bool) : Keeps n k (superExpression g ctx start noCall) := by
  mvcgen [superExpression]
  all_goals grind -linarith

@[spec] theorem afterNew_keeps (hg : g.Keeps n) (ctx : Context) (h : start ≤ n) :
    Keeps n k (afterNew g ctx start) := by
  mvcgen [afterNew]
  all_goals grind -linarith

@[spec] theorem construction_keeps (hg : g.Keeps n) (ctx : Context) :
    Keeps n k (construction g ctx) := by
  mvcgen [construction]
  all_goals grind -linarith

@[spec] theorem leftHand_keeps (hg : g.Keeps n) (ctx : Context) : Keeps n k (leftHand g ctx) := by
  mvcgen [leftHand]
  all_goals grind -linarith

/-! ## Operators -/

@[spec] theorem awaitsNothing_keeps (ctx : Context) : Keeps n k (awaitsNothing ctx) := by
  mvcgen [awaitsNothing]
  all_goals grind -linarith

@[spec] theorem awaitRest_keeps (hg : g.Keeps n) (ctx : Context) (h : start ≤ n) :
    Keeps n k (awaitRest g ctx start) := by
  mvcgen [awaitRest]
  all_goals grind -linarith

@[spec] theorem unaryWith_keeps (hg : g.Keeps n) (ctx : Context) (op : UnaryOperator) :
    Keeps n k (unaryWith g ctx op) := by
  mvcgen [unaryWith]
  all_goals grind -linarith

@[spec] theorem unaryExpression_keeps (hg : g.Keeps n) (ctx : Context) :
    Keeps n k (unaryExpression g ctx) := by
  mvcgen [unaryExpression]
  all_goals grind -linarith

@[spec] theorem checkNullish_keeps (h : Within n left) : Keeps n k (checkNullish left) := by
  mvcgen [checkNullish]
  all_goals grind -linarith

@[spec] theorem binaryTail_keeps (hg : g.Keeps n) (ctx : Context) (h : Within n left)
    (level : Nat) : Keeps n k (binaryTail g ctx left level) := by
  mvcgen [binaryTail]
  all_goals grind -linarith

@[spec] theorem binaryExpression_keeps (hg : g.Keeps n) (ctx : Context) :
    Keeps n k (binaryExpression g ctx) := by
  mvcgen [binaryExpression]
  all_goals grind -linarith

@[spec] theorem conditionalExpression_keeps (hg : g.Keeps n) (ctx : Context) :
    Keeps n k (conditionalExpression g ctx) := by
  mvcgen [conditionalExpression]
  all_goals grind -linarith

@[spec] theorem yieldExpression_keeps (hg : g.Keeps n) (ctx : Context) :
    Keeps n k (yieldExpression g ctx) := by
  mvcgen [yieldExpression]
  all_goals grind -linarith

@[spec] theorem maybeAssignment_keeps (hg : g.Keeps n) (ctx : Context) (start : Pos)
    (hs : start ≤ n) (h : Within n left) : Keeps n k (maybeAssignment g ctx start left) := by
  mvcgen [maybeAssignment]
  all_goals grind -linarith

@[spec] theorem assignmentExpression_keeps (hg : g.Keeps n) (ctx : Context) :
    Keeps n k (assignmentExpression g ctx) := by
  mvcgen [assignmentExpression]
  all_goals grind -linarith

end Census.Script
