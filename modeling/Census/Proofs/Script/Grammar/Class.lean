import Mathlib
import Census.Script.Grammar.Class
import Census.Proofs.Script.Grammar.Function
/-!
Classes and their members keep to the characters that are left. Like functions, members with parameters do
not start at the end of the text. A member is made of a key, and a constructor of a key that says so.
-/

set_option mvcgen.warning false

namespace Census.Script

open Census.Text (Pos)
open Std.Do
open Parse

variable {n k start : Pos} {g : Grammar} {key word : Node} {m : MemberStart}

/-! ## Members -/

instance : Positioned MemberStart := ⟨fun n m => m.start ≤ n ∧ Within n m.staticAt⟩

@[grind =] theorem within_memberStart {staticAt : Option Pos} :
    Within n (MemberStart.mk start staticAt) ↔ start ≤ n ∧ Within n staticAt :=
  Iff.rfl

@[grind →] theorem Within.memberStart_fields (h : Within n m) :
    m.start ≤ n ∧ Within n m.staticAt :=
  h

@[grind →] theorem isKey_of_isConstructorKey (h : isConstructorKey key = true) : key.isKey = true := by
  unfold isConstructorKey at h
  unfold Node.isKey
  split at h <;> simp_all

@[spec] theorem classKey_keeps (hg : g.Keeps n) (ctx : Context) :
    KeepsAnd n k (fun key => key.isKey = true) (classKey g ctx) := by
  mvcgen [classKey]
  all_goals grind -linarith

@[spec] theorem atFieldEnd_keeps (linesCount : Bool) : Keeps n k (atFieldEnd linesCount) := by
  mvcgen [atFieldEnd]
  all_goals grind -linarith

@[spec] theorem method_keeps (hg : g.Keeps n) (ctx : Context) (hm : Within n m)
    (hl : k ≤ m.start) (hk : Within n key) (hkey : key.isKey = true) {role : MemberRole}
    (hr : role ≠ .construct) (isAsync isGenerator : Bool) :
    Keeps n k (method g ctx m key role isAsync isGenerator) := by
  unfold method
  cases role
  all_goals mvcgen
  all_goals grind -linarith

@[spec] theorem constructorMember_keeps (hg : g.Keeps n) (ctx : Context) (hm : Within n m)
    (hl : k ≤ m.start) (hk : Within n key) (hkey : isConstructorKey key = true) :
    Keeps n k (constructorMember g ctx m key) := by
  mvcgen [constructorMember, constructorMember.parametersAndBodyOfConstructor]
  all_goals grind -linarith

@[spec] theorem fieldMember_keeps (hg : g.Keeps n) (ctx : Context) (hm : Within n m)
    (hk : Within n key) : Keeps n k (fieldMember g ctx m key) := by
  mvcgen [fieldMember]
  all_goals grind -linarith

@[spec] theorem staticBlock_keeps (hg : g.Keeps n) (ctx : Context) (h : start ≤ n) :
    Keeps n k (staticBlock g ctx start) := by
  mvcgen [staticBlock]
  all_goals grind -linarith

@[spec] theorem modifiedMember_keeps (hg : g.Keeps n) (ctx : Context) (hm : Within n m)
    (hl : k ≤ m.start) (hk : Within n key) {accessor : Option MemberRole}
    (ha : accessor ≠ some .construct) : Keeps n k (modifiedMember g ctx m key accessor) := by
  mvcgen [modifiedMember]
  all_goals grind -linarith

@[spec] theorem accessorRole?_keeps (key : Node) :
    KeepsAnd n k (fun role => role ≠ some .construct) (accessorRole? key) := by
  mvcgen [accessorRole?]
  all_goals grind -linarith

@[spec] theorem memberAfterModifiers_keeps (hg : g.Keeps n) (ctx : Context) (hm : Within n m)
    (hl : k ≤ m.start) : Keeps n k (memberAfterModifiers g ctx m) := by
  mvcgen [memberAfterModifiers]
  all_goals grind -linarith

@[spec] theorem staticMember_keeps (hg : g.Keeps n) (ctx : Context) (h : start ≤ n)
    (hl : k ≤ start) (hw : Within n word) (hkey : word.isKey = true) :
    Keeps n k (staticMember g ctx start word) := by
  mvcgen [staticMember]
  all_goals grind -linarith

@[spec] theorem classMember_keeps (hg : g.Keeps n) (ctx : Context) :
    Keeps n k (classMember g ctx) := by
  refine keeps_of_start fun start h => ?_
  mvcgen [classMember, here, -here_keeps]
  all_goals grind -linarith

/-! ## Classes -/

@[spec] theorem classMembers_keeps (hg : g.Keeps n) (ctx : Context) :
    Keeps n k (classMembers g ctx) := by
  mvcgen [classMembers]
  all_goals grind -linarith

@[spec] theorem heritage_keeps (hg : g.Keeps n) (ctx : Context) : Keeps n k (heritage g ctx) := by
  mvcgen [heritage]
  all_goals grind -linarith

@[spec] theorem classParts_keeps (hg : g.Keeps n) (ctx : Context) (nameRequired : Bool) :
    Keeps n k (classParts g ctx nameRequired) := by
  mvcgen [classParts]
  all_goals grind -linarith

@[spec] theorem classNode_keeps (hg : g.Keeps n) (ctx : Context) {construct : Construct}
    (hc : Within n construct) (hf : construct.isFunction = false) (nameRequired : Bool) :
    Keeps n k (classNode g ctx construct nameRequired) := by
  mvcgen [classNode]
  all_goals grind -linarith

end Census.Script
