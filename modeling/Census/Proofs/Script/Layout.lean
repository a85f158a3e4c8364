import Census.Proofs.Script.Places
/-!
Where nodes stand in the text. In a tree that is laid out, the parts of a node stand within it, apart from
each other and in the order in which they are listed, but for two constructs that list two of their parts
the other way round. The order of a visit is then the order of the text, but for places in two such parts.
-/

namespace Census.Script

variable {n : Node} {above : List Step} {p q : Place} {m : Module}

/-! ## Layouts -/

def Construct.isClass : Construct → Bool
  | classDeclaration | classExpression => true
  | _ => false

/-- A class that extends another one. -/
def Node.isSubclass (n : Node) : Bool :=
  n.construct.isClass && n.parts.any (·.construct == .heritage)

def Node.partIs (n : Node) (i : Nat) (c : Construct) : Bool := n.parts[i]?.any (·.construct == c)

/-- The parts `i` and `j` of a node are listed in this order and stand in the text in the other one: the
body of a class and what the class extends, the test of a `do` loop and its body. -/
def Node.turns (n : Node) (i j : Nat) : Bool :=
  n.construct.isClass && n.partIs i .classBody && n.partIs j .heritage ||
    n.construct == .doLoop && i == 0 && j == 1

/-- A node ends where another one starts, or before. -/
def Node.EndsBefore (a b : Node) : Prop := b.start ≤ a.span.stop

instance (a b : Node) : Decidable (a.EndsBefore b) := inferInstanceAs (Decidable (_ ≤ _))

/-- The parts of a node stand within it and apart from each other, in the order of the text. -/
structure Node.LaidOut (n : Node) : Prop where
  forward : n.span.stop ≤ n.start
  within : ∀ part ∈ n.parts, part.start ≤ n.start ∧ n.span.stop ≤ part.span.stop
  apart : ∀ (j : Nat) (_ : j < n.parts.length) (i : Nat) (_ : i < j),
    if n.turns i j then n.parts[j].EndsBefore n.parts[i] else n.parts[i].EndsBefore n.parts[j]

instance (n : Node) : Decidable n.LaidOut :=
  decidable_of_iff
    (n.span.stop ≤ n.start ∧
      (∀ part ∈ n.parts, part.start ≤ n.start ∧ n.span.stop ≤ part.span.stop) ∧
      ∀ (j : Nat) (_ : j < n.parts.length) (i : Nat) (_ : i < j),
        if n.turns i j then n.parts[j].EndsBefore n.parts[i] else n.parts[i].EndsBefore n.parts[j])
    ⟨fun h => ⟨h.1, h.2.1, h.2.2⟩, fun h => ⟨h.forward, h.within, h.apart⟩⟩

/-- The spans of a module are those of its text: every node is laid out, and the items stand one behind
another. -/
structure Module.LaidOut (m : Module) : Prop where
  nodes : ∀ p ∈ m.places, p.node.LaidOut
  items : m.items.Pairwise Node.EndsBefore

instance (m : Module) : Decidable m.LaidOut :=
  decidable_of_iff ((∀ p ∈ m.places, p.node.LaidOut) ∧ m.items.Pairwise Node.EndsBefore)
    ⟨fun h => ⟨h.1, h.2⟩, fun h => ⟨h.nodes, h.items⟩⟩

/-- A place is in the part `i` of the node at another place. -/
def Place.IsIn (p owner : Place) (i : Nat) : Prop := ⟨owner.node, i⟩ :: owner.above <:+ p.above

/-- Of two places the first is in the body of a class and the second in what the class extends, or the first
in the test of a `do` loop and the second in its body. -/
def Turned (places : List Place) (p q : Place) : Prop :=
  ∃ owner ∈ places, ∃ i j, owner.node.turns i j = true ∧ p.IsIn owner i ∧ q.IsIn owner j

/-- Of two places the first does not start behind the second, if they are not in parts that are listed the
other way round. -/
def InOrder (places : List Place) (p q : Place) : Prop :=
  q.node.start ≤ p.node.start ∨ Turned places p q

theorem InOrder.mono {places places' : List Place} (h : InOrder places p q)
    (hsub : ∀ o ∈ places, o ∈ places') : InOrder places' p q := by
  rcases h with h | ⟨owner, howner, hturned⟩
  · exact .inl h
  · exact .inr ⟨owner, hsub owner howner, hturned⟩

/-! ## Places within a node -/

theorem above_suffix_of_mem_places (hp : p ∈ n.places above) : above <:+ p.above := by
  induction n using Node.induction generalizing above with
  | mk construct span parts ih =>
    rcases mem_places.mp hp with rfl | ⟨i, part, hpart, hp⟩
    · exact List.suffix_rfl
    · exact (List.suffix_cons _ above).trans (ih part (List.mem_of_getElem? hpart) hp)

theorem part_places_subset {part : Node} {i : Nat} (hpart : n.parts[i]? = some part) :
    ∀ q ∈ part.places (⟨n, i⟩ :: above), q ∈ n.places above :=
  fun _ hq => mem_places.mpr (.inr ⟨i, part, hpart, hq⟩)

/-- What is in a node that is laid out stands within it. -/
theorem within_of_mem_places (h : ∀ q ∈ n.places above, q.node.LaidOut)
    (hp : p ∈ n.places above) : p.node.start ≤ n.start ∧ n.span.stop ≤ p.node.span.stop := by
  induction n using Node.induction generalizing above with
  | mk construct span parts ih =>
    have hself : (Node.mk construct span parts).LaidOut :=
      h _ (mem_places.mpr (.inl rfl))
    rcases mem_places.mp hp with rfl | ⟨i, part, hpart, hp⟩
    · exact ⟨Nat.le_refl _, Nat.le_refl _⟩
    · have hmem : part ∈ parts := List.mem_of_getElem? hpart
      have houter := hself.within part hmem
      have hinner := ih part hmem (fun q hq => h q (part_places_subset hpart q hq)) hp
      exact ⟨Nat.le_trans hinner.1 houter.1, Nat.le_trans houter.2 hinner.2⟩

/-- Nodes in two nodes of which one ends before the other starts stand in this order. -/
theorem start_le_of_endsBefore {a b : Node} {above' : List Step} (hab : a.EndsBefore b)
    (ha : ∀ r ∈ a.places above, r.node.LaidOut) (hb : ∀ r ∈ b.places above', r.node.LaidOut)
    (hp : p ∈ a.places above) (hq : q ∈ b.places above') : q.node.start ≤ p.node.start :=
  calc
    q.node.start ≤ b.start := (within_of_mem_places hb hq).1
    _ ≤ a.span.stop := hab
    _ ≤ p.node.span.stop := (within_of_mem_places ha hp).2
    _ ≤ p.node.start := (ha p hp).forward

/-! ## The order of a visit -/

theorem placesFrom_eq_flatMap (above : List Step) (owner : Node) (i : Nat) (parts : List Node) :
    Node.placesFrom above owner i parts =
      (parts.zipIdx i).flatMap fun part => part.1.places (⟨owner, part.2⟩ :: above) := by
  induction parts generalizing i with
  | nil => rfl
  | cons part parts ih => rw [Node.placesFrom, ih, List.zipIdx_cons, List.flatMap_cons]

/-- Places in two parts of a node that is laid out are in order. -/
theorem inOrder_of_parts {i j : Nat} (h : ∀ r ∈ n.places above, r.node.LaidOut) (hij : i < j)
    (hj : j < n.parts.length) (hp : p ∈ n.parts[i].places (⟨n, i⟩ :: above))
    (hq : q ∈ n.parts[j].places (⟨n, j⟩ :: above)) : InOrder (n.places above) p q := by
  have hself : ⟨n, above⟩ ∈ n.places above := mem_places.mpr (.inl rfl)
  have hapart := (h _ hself).apart j hj i hij
  split at hapart
  · rename_i hturns
    exact .inr ⟨⟨n, above⟩, hself, i, j, hturns, above_suffix_of_mem_places hp,
      above_suffix_of_mem_places hq⟩
  · refine .inl (start_le_of_endsBefore hapart ?_ ?_ hp hq)
    · exact fun r hr => h r (part_places_subset (List.getElem?_eq_getElem _) r hr)
    · exact fun r hr => h r (part_places_subset (List.getElem?_eq_getElem _) r hr)

theorem places_inOrder (h : ∀ r ∈ n.places above, r.node.LaidOut) :
    (n.places above).Pairwise (InOrder (n.places above)) := by
  induction n using Node.induction generalizing above with
  | mk construct span parts ih =>
    have hlist : (Node.mk construct span parts).places above =
        ⟨.mk construct span parts, above⟩ ::
          (parts.zipIdx 0).flatMap fun part =>
            part.1.places (⟨.mk construct span parts, part.2⟩ :: above) := by
      rw [Node.places, placesFrom_eq_flatMap]
    rw [hlist, List.pairwise_cons, ← hlist, List.pairwise_flatMap]
    -- the node and a place in it, two places in one part, and places in two parts
    refine ⟨fun q hq => .inl ?_, ?_, ?_⟩
    · exact (within_of_mem_places h (hlist ▸ List.mem_cons_of_mem _ hq)).1
    · rintro ⟨part, i⟩ hmem
      have hpart : parts[i]? = some part := List.mem_zipIdx_iff_getElem?.mp hmem
      have hsub : ∀ q ∈ part.places (⟨.mk construct span parts, i⟩ :: above),
          q ∈ (Node.mk construct span parts).places above :=
        part_places_subset hpart
      have hinner := ih part (List.mem_of_getElem? hpart) fun q hq => h q (hsub q hq)
      exact hinner.imp fun hpq => hpq.mono hsub
    · refine List.pairwise_iff_getElem.mpr fun i j hi hj hij p hp q hq => ?_
      simp only [List.getElem_zipIdx, Nat.zero_add] at hp hq
      exact inOrder_of_parts h hij (by simpa [Node.parts] using hj) hp hq

/-- A visit of a module that is laid out goes through the text in its order, but for parts that are listed
the other way round. -/
theorem Module.places_inOrder (h : m.LaidOut) : m.places.Pairwise (InOrder m.places) := by
  have hsub (n : Node) (hn : n ∈ m.items) : ∀ p ∈ n.places [], p ∈ m.places :=
    fun p hp => List.mem_flatMap.mpr ⟨n, hn, hp⟩
  have hnodes (n : Node) (hn : n ∈ m.items) : ∀ p ∈ n.places [], p.node.LaidOut :=
    fun p hp => h.nodes p (hsub n hn p hp)
  unfold Module.places
  rw [List.pairwise_flatMap]
  constructor
  · intro n hn
    exact (Script.places_inOrder (hnodes n hn)).imp fun hpq => hpq.mono (hsub n hn)
  · refine h.items.imp_of_mem fun {a b} ha hb hab p hp q hq => .inl ?_
    exact start_le_of_endsBefore hab (hnodes a ha) (hnodes b hb) hp hq

end Census.Script
