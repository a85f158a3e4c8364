import Census.Callable.Discovery
import Census.Proofs.Script.Places
import Census.Proofs.Script.Reading
import Census.Proofs.Text.LineTable
/-!
The callables of a module that has been read start within the text and before its end, and the numbers of
their lines fit into the records.
-/

namespace Census

open Census.Script
open Census.Text (Pos lineOf)

variable {n : Pos} {s : List Char}

/-! ## Where callables start -/

instance : Positioned Callable := ⟨fun n c => 0 < c.start ∧ c.start ≤ n⟩

/-- The callable that a function stands for, by whatever name and of whatever kind. -/
theorem within_callable {construct : Construct} {span : Span} {parts : List Node}
    (h : Within n (Node.mk construct span parts)) (hf : construct.isFunction = true)
    (name : Option String) (kind : CallableKind) :
    Within n [(⟨name, span.start, kind⟩ : Callable)] :=
  within_cons.mpr ⟨⟨((within_node.mp h).2.2.1 hf).1, Within.node_start h⟩, within_nil⟩

theorem boundCallable_within {name : String} {node : Node} (h : Within n node) :
    Within n (boundCallable name node) := by
  fun_induction boundCallable name node with
  | case1 span inner ih => exact ih (within_cons.mp (within_node.mp h).2.2.2).1
  | case2 name' span parts => exact within_callable h rfl _ _
  | case3 block span parts => exact within_callable h rfl _ _
  | case4 => exact within_nil

theorem declaredCallable_within {node : Node} (h : Within n node) :
    Within n (declaredCallable node) := by
  unfold declaredCallable
  split
  · exact within_callable h rfl _ _
  · exact within_nil

theorem ownCallables_within {node : Node} (h : Within n node) : Within n (ownCallables node) := by
  have hparts : Within n node.parts := Within.node_parts h
  unfold ownCallables
  split
  · exact within_callable h rfl _ _
  · exact declaredCallable_within (within_cons.mp hparts).1
  · exact within_callable h rfl _ _
  · split
    · exact boundCallable_within (within_cons.mp (within_cons.mp hparts).2).1
    · exact within_nil
  · exact within_nil

theorem callablesOfAll_within {nodes : List Node}
    (h : ∀ node ∈ nodes, Within n (callables node)) : Within n (callablesOfAll nodes) := by
  induction nodes with
  | nil => exact within_nil
  | cons node more ih =>
    exact within_append.mpr ⟨h node (by simp), ih fun m hm => h m (by simp [hm])⟩

theorem callables_within (node : Node) (h : Within n node) : Within n (callables node) := by
  induction node using Node.induction with
  | mk construct span parts ih =>
    have hparts : Within n parts := (within_node.mp h).2.2.2
    exact within_append.mpr
      ⟨ownCallables_within h, callablesOfAll_within fun m hm => ih m hm (hparts m hm)⟩

theorem discover_within {m : Module} (h : Within n m) : Within n (discover m) :=
  callablesOfAll_within fun node hnode => callables_within node (h node hnode)

theorem Module.read_nil : Module.read [] = .ok ⟨[]⟩ := by
  rfl

/-! ## Numbers of lines -/

theorem length_le_utf8ByteSize (cs : List Char) : cs.length ≤ (String.ofList cs).utf8ByteSize := by
  rw [String.utf8ByteSize_ofList]
  induction cs with
  | nil => exact Nat.le_refl _
  | cons c cs ih =>
    have hc := Char.utf8Size_pos c
    rw [String.utf8Len_cons, List.length_cons]
    omega

/-- Lines of a text of that size are the same as numbers of 32 bits. -/
theorem toNat_lineOf (hsize : (String.ofList s).utf8ByteSize ≤ 2 ^ 32 - 2) (hs : s ≠ []) (pos : Pos) :
    (UInt32.ofNat (lineOf s pos)).toNat = lineOf s pos := by
  have hbytes : String.utf8Len s ≤ 2 ^ 32 - 2 := String.utf8ByteSize_ofList s ▸ hsize
  have hline := (Text.lineOf_bounds hs hbytes pos).2
  have hbreaks := Text.lineBreaks_le s
  have hlength := length_le_utf8ByteSize s
  rw [UInt32.toNat_ofNat', Nat.mod_eq_of_lt (by omega)]

end Census
