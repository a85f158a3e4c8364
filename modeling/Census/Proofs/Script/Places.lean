import Mathlib.Data.List.Basic
import Census.Script.Tree
/-!
Places in a tree. A place is a node with the nodes around it. The places of a module are listed in the
order of a visit, each node before its parts and the parts in their order, and every way down from the
items leads to one of them.
-/

namespace Census.Script

/-- A node on the way down to a place, and which of its parts the way goes through. -/
structure Step where
  node : Node
  part : Nat

structure Place where
  node : Node
  /-- The nodes around the place, the innermost first. -/
  above : List Step

mutual

/-- The places in a node: itself first, then those in its parts, one part after another. -/
def Node.places (above : List Step) : Node → List Place
  | .mk construct span parts =>
    ⟨.mk construct span parts, above⟩ :: Node.placesFrom above (.mk construct span parts) 0 parts

/-- The places in the parts of a node from the part with a given number on. -/
def Node.placesFrom (above : List Step) (owner : Node) (i : Nat) : List Node → List Place
  | [] => []
  | n :: ns => n.places (⟨owner, i⟩ :: above) ++ Node.placesFrom above owner (i + 1) ns

end

def Module.places (m : Module) : List Place := m.items.flatMap (·.places [])

/-- A place that a way down from some nodes, taken with those above them, leads to. -/
inductive Leads (ns : List Node) (above : List Step) : Place → Prop where
  | top {n : Node} : n ∈ ns → Leads ns above ⟨n, above⟩
  | down {p : Place} {n : Node} {i : Nat} : Leads ns above p → p.node.parts[i]? = some n →
    Leads ns above ⟨n, ⟨p.node, i⟩ :: p.above⟩

/-! ## Every node has its place -/

theorem Node.induction {P : Node → Prop}
    (mk : ∀ construct span parts, (∀ n ∈ parts, P n) → P (.mk construct span parts)) (n : Node) :
    P n :=
  match n with
  | .mk construct span parts => mk construct span parts fun m _ => Node.induction mk m

theorem mem_placesFrom {parts : List Node} {above : List Step} {owner : Node} {i : Nat} {p : Place} :
    p ∈ Node.placesFrom above owner i parts ↔
      ∃ (j : Nat) (n : Node), parts[j]? = some n ∧ p ∈ n.places (⟨owner, i + j⟩ :: above) := by
  induction parts generalizing i with
  | nil => simp [Node.placesFrom]
  | cons m ms ih =>
    rw [Node.placesFrom, List.mem_append, ih]
    constructor
    · rintro (hp | ⟨j, n, hn, hp⟩)
      · exact ⟨0, m, rfl, hp⟩
      · exact ⟨j + 1, n, hn, by rwa [show i + (j + 1) = i + 1 + j by omega]⟩
    · rintro ⟨j, n, hn, hp⟩
      cases j with
      | zero =>
        obtain rfl : m = n := by simpa using hn
        exact Or.inl hp
      | succ j => exact Or.inr ⟨j, n, hn, by rwa [show i + 1 + j = i + (j + 1) by omega]⟩

theorem mem_places {n : Node} {above : List Step} {p : Place} :
    p ∈ n.places above ↔ p = ⟨n, above⟩ ∨
      ∃ (i : Nat) (m : Node), n.parts[i]? = some m ∧ p ∈ m.places (⟨n, i⟩ :: above) := by
  obtain ⟨construct, span, parts⟩ := n
  rw [Node.places, List.mem_cons, mem_placesFrom]
  simp [Node.parts]

/-- A way down from the parts of a node is a way down from the node. -/
theorem leads_of_part {n m : Node} {above : List Step} {i : Nat} {p : Place}
    (hm : n.parts[i]? = some m) (hp : Leads [m] (⟨n, i⟩ :: above) p) : Leads [n] above p := by
  induction hp with
  | top h =>
    obtain rfl := List.mem_singleton.mp h
    exact (Leads.top List.mem_cons_self).down hm
  | down _ hpart ih => exact ih.down hpart

theorem leads_of_mem_places {n : Node} {above : List Step} {p : Place} (hp : p ∈ n.places above) :
    Leads [n] above p := by
  induction n using Node.induction generalizing above with
  | mk construct span parts ih =>
    rcases mem_places.mp hp with rfl | ⟨i, m, hm, hp⟩
    · exact Leads.top List.mem_cons_self
    · exact leads_of_part hm (ih m (List.mem_of_getElem? hm) hp)

theorem part_mem_places {n m : Node} {above : List Step} {p : Place} {i : Nat}
    (hp : p ∈ n.places above) (hm : p.node.parts[i]? = some m) :
    ⟨m, ⟨p.node, i⟩ :: p.above⟩ ∈ n.places above := by
  induction n using Node.induction generalizing above with
  | mk construct span parts ih =>
    rcases mem_places.mp hp with rfl | ⟨j, k, hk, hp⟩
    · exact mem_places.mpr (Or.inr ⟨i, m, hm, mem_places.mpr (Or.inl rfl)⟩)
    · exact mem_places.mpr (Or.inr ⟨j, k, hk, ih k (List.mem_of_getElem? hk) hp⟩)

/-- The places of a module are those that a way down from its items leads to. -/
theorem mem_module_places {m : Module} {p : Place} : p ∈ m.places ↔ Leads m.items [] p := by
  rw [Module.places, List.mem_flatMap]
  constructor
  · rintro ⟨n, hn, hp⟩
    have hlead := leads_of_mem_places hp
    clear hp
    induction hlead with
    | top h =>
      obtain rfl := List.mem_singleton.mp h
      exact Leads.top hn
    | down _ hpart ih => exact ih.down hpart
  · intro hp
    induction hp with
    | top hn => exact ⟨_, hn, mem_places.mpr (Or.inl rfl)⟩
    | down _ hpart ih =>
      obtain ⟨n, hn, hp⟩ := ih
      exact ⟨n, hn, part_mem_places hp hpart⟩

end Census.Script
