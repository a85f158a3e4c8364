import Census.Proofs.Callable.Places
import Census.Proofs.Except
import Census.Script.Parse
/-!
Parentheses do not matter. Without them a module has the same nodes at the same places but for the
parentheses themselves, and at each place the same callable, or none.
-/

namespace Census.Script

variable {n : Node} {above : List Step} {p : Place} {m : Module} {s : Step}

/-! ## Taking parentheses away -/

mutual

/-- A node without the parentheses around it and in it. -/
def Node.bare : Node → Node
  | .mk .parenthesized _ [inner] => inner.bare
  | .mk construct span parts => .mk construct span (Node.allBare parts)

def Node.allBare : List Node → List Node
  | [] => []
  | n :: ns => n.bare :: Node.allBare ns

end

def Module.bare (m : Module) : Module := ⟨Node.allBare m.items⟩

def Step.bare (s : Step) : Step := ⟨s.node.bare, s.part⟩

/-- The nodes around a place without the parentheses among them. -/
def bareSteps (above : List Step) : List Step :=
  (above.filter (!·.node.isParentheses)).map Step.bare

def Place.bare (p : Place) : Place := ⟨p.node.bare, bareSteps p.above⟩

/-- What a default export declares, what a variable is called and the key of a class member are no
expressions and so not in parentheses. -/
def Node.parenthesesInPlace : Node → Bool
  | .mk .exportDefaultDeclaration _ [inner] => !inner.isParentheses
  | .mk .declarator _ (target :: _) => !target.isParentheses
  | .mk (.classMember _) _ (key :: _) => !key.isParentheses
  | _ => true

theorem eq_of_isParentheses (h : n.isParentheses = true) :
    ∃ span inner, n = .mk .parenthesized span [inner] := by
  unfold Node.isParentheses at h
  split at h
  · exact ⟨_, _, rfl⟩
  · exact absurd h (by simp)

theorem bare_of_not_parentheses (h : n.isParentheses = false) :
    n.bare = .mk n.construct n.span (Node.allBare n.parts) := by
  unfold Node.bare
  split
  · exact absurd h (by simp [Node.isParentheses])
  · rfl

theorem allBare_eq_map (ns : List Node) : Node.allBare ns = ns.map Node.bare := by
  induction ns with
  | nil => rfl
  | cons n ns ih => rw [Node.allBare, ih, List.map_cons]

theorem bareSteps_cons_parentheses (h : s.node.isParentheses = true) :
    bareSteps (s :: above) = bareSteps above := by
  simp [bareSteps, h]

theorem bareSteps_cons (h : s.node.isParentheses = false) :
    bareSteps (s :: above) = s.bare :: bareSteps above := by
  simp [bareSteps, h]

/-- Nothing in parentheses is left. -/
theorem isParentheses_bare (n : Node) : n.bare.isParentheses = false := by
  induction n using Node.induction with
  | mk construct span parts ih =>
    by_cases h : (Node.mk construct span parts).isParentheses = true
    · obtain ⟨span', inner, heq⟩ := eq_of_isParentheses h
      obtain ⟨rfl, rfl, rfl⟩ := Node.mk.inj heq
      exact ih inner List.mem_cons_self
    · have h : (Node.mk construct span parts).isParentheses = false := by simpa using h
      rw [bare_of_not_parentheses h, allBare_eq_map, Bool.eq_false_iff]
      intro hbare
      obtain ⟨span', inner, heq⟩ := eq_of_isParentheses hbare
      obtain ⟨rfl, rfl, hparts⟩ := Node.mk.inj heq
      obtain ⟨inner', rfl, -⟩ := List.map_eq_singleton_iff.mp hparts
      exact absurd h (by simp [Node.isParentheses])

/-! ## The places that are left -/

theorem placesFrom_bare {parts : List Node} {owner : Node} (h : owner.isParentheses = false)
    (ih : ∀ n ∈ parts, ∀ above, n.bare.places (bareSteps above) =
      ((n.places above).filter (!·.node.isParentheses)).map Place.bare) (above : List Step) (i : Nat) :
    Node.placesFrom (bareSteps above) owner.bare i (Node.allBare parts) =
      ((Node.placesFrom above owner i parts).filter (!·.node.isParentheses)).map Place.bare := by
  induction parts generalizing i with
  | nil => rfl
  | cons n ns ihns =>
    have hn := ih n List.mem_cons_self (⟨owner, i⟩ :: above)
    have hns := ihns (fun k hk => ih k (List.mem_cons_of_mem _ hk)) (i + 1)
    rw [bareSteps_cons h, Step.bare] at hn
    rw [Node.allBare, Node.placesFrom, Node.placesFrom, List.filter_append, List.map_append, hn, hns]

/-- The places without parentheses are those with them, each without the parentheses at it and around
it. -/
theorem places_bare (n : Node) (above : List Step) :
    n.bare.places (bareSteps above) =
      ((n.places above).filter (!·.node.isParentheses)).map Place.bare := by
  induction n using Node.induction generalizing above with
  | mk construct span parts ih =>
    by_cases h : (Node.mk construct span parts).isParentheses = true
    · obtain ⟨span', inner, heq⟩ := eq_of_isParentheses h
      obtain ⟨rfl, rfl, rfl⟩ := Node.mk.inj heq
      rw [Node.places, Node.placesFrom, Node.placesFrom, List.append_nil,
        List.filter_cons_of_neg (by simp [h]), Node.bare, ← ih inner List.mem_cons_self,
        bareSteps_cons_parentheses h]
    · have h : (Node.mk construct span parts).isParentheses = false := by simpa using h
      have hparts := placesFrom_bare h ih above 0
      rw [Node.places, List.filter_cons_of_pos (by simp [h]), List.map_cons, ← hparts, Place.bare,
        bare_of_not_parentheses h, Node.places]
      rfl

theorem Module.places_bare (m : Module) :
    m.bare.places = (m.places.filter (!·.node.isParentheses)).map Place.bare := by
  rw [Module.places, Module.bare, allBare_eq_map, List.flatMap_map, Module.places, List.filter_flatMap,
    List.map_flatMap]
  exact List.flatMap_congr fun n _ => Script.places_bare n []

/-! ## The callable at a place -/

theorem exists_place_of_step (hp : p ∈ m.places) (hs : s ∈ p.above) :
    ∃ o ∈ m.places, o.node = s.node := by
  rw [mem_module_places] at hp
  induction hp with
  | top => exact absurd hs (List.not_mem_nil)
  | @down p n i hp _ ih =>
    rcases List.mem_cons.mp hs with rfl | hs
    · exact ⟨p, mem_module_places.mpr hp, rfl⟩
    · exact ih hs

theorem eq_of_isDeclaredDefault (h : isDeclaredDefault (s :: above) = true) :
    ∃ span inner, s.node = .mk .exportDefaultDeclaration span [inner] := by
  unfold isDeclaredDefault at h
  split at h
  · rename_i heq
    obtain ⟨rfl, -⟩ := List.cons.inj heq
    exact ⟨_, _, rfl⟩
  · exact absurd h (by simp)

/-- What stands in parentheses is not what a default export declares. -/
theorem isDeclaredDefault_of_parentheses (hm : ∀ p ∈ m.places, p.node.parenthesesInPlace = true)
    (hp : p ∈ m.places) (h : p.node.isParentheses = true) : isDeclaredDefault p.above = false := by
  rw [mem_module_places] at hp
  cases hp with
  | top => rfl
  | @down p n i hp hpart =>
    rw [Bool.eq_false_iff]
    intro hdeclared
    obtain ⟨span, inner, howner⟩ := eq_of_isDeclaredDefault hdeclared
    have hplain := hm p (mem_module_places.mpr hp)
    dsimp only at howner
    rw [howner] at hpart hplain
    obtain rfl : inner = n := List.mem_singleton.mp (List.mem_of_getElem? hpart) |>.symm
    simp [Node.parenthesesInPlace, h] at hplain

theorem isDeclaredDefault_cons_bare (h : s.node.isParentheses = false) (above above' : List Step) :
    isDeclaredDefault (s.bare :: above') = isDeclaredDefault (s :: above) := by
  obtain ⟨⟨construct, span, parts⟩, part⟩ := s
  rw [Step.bare, bare_of_not_parentheses h, allBare_eq_map]
  cases construct
  case exportDefaultDeclaration => obtain _ | ⟨_, _ | ⟨_, _⟩⟩ := parts <;> rfl
  all_goals rfl

theorem isDeclaredDefault_bare (hm : ∀ p ∈ m.places, p.node.parenthesesInPlace = true)
    (hp : p ∈ m.places) : isDeclaredDefault (bareSteps p.above) = isDeclaredDefault p.above := by
  rw [mem_module_places] at hp
  induction hp with
  | top => rfl
  | @down p n i hp hpart ih =>
    by_cases h : p.node.isParentheses = true
    -- nothing below parentheses is declared by a default export, nor are the parentheses themselves
    · have hoff := isDeclaredDefault_of_parentheses hm (mem_module_places.mpr hp) h
      obtain ⟨span, inner, hnode⟩ := eq_of_isParentheses h
      dsimp only
      rw [bareSteps_cons_parentheses h, ih, hoff, hnode]
      rfl
    · have h : p.node.isParentheses = false := by simpa using h
      dsimp only
      rw [bareSteps_cons h]
      exact isDeclaredDefault_cons_bare h _ _

theorem construct_bare (h : n.isParentheses = false) : n.bare.construct = n.construct := by
  rw [bare_of_not_parentheses h]
  rfl

theorem name?_bare (h : n.isParentheses = false) : n.bare.name? = n.name? := by
  obtain ⟨construct, span, parts⟩ := n
  rw [bare_of_not_parentheses h, allBare_eq_map]
  cases construct
  case identifier => cases parts <;> rfl
  all_goals rfl

theorem keyName?_bare (h : n.isParentheses = false) : keyName? n.bare = keyName? n := by
  rw [keyName?, keyName?, construct_bare h]

theorem boundName?_cons_bare (h : s.node.isParentheses = false)
    (hs : s.node.parenthesesInPlace = true) (above above' : List Step) :
    boundName? (s.bare :: above') = boundName? (s :: above) := by
  have hbare : s.bare.node.isParentheses = false := isParentheses_bare s.node
  rw [boundName?, boundName?, List.dropWhile_cons_of_neg (by simp [hbare]),
    List.dropWhile_cons_of_neg (by simp [h])]
  obtain ⟨⟨construct, span, parts⟩, part⟩ := s
  rw [Step.bare, bare_of_not_parentheses h, allBare_eq_map]
  cases construct
  case declarator =>
    obtain _ | ⟨target, _ | ⟨value, _ | ⟨_, _⟩⟩⟩ := parts
    -- only the second of two parts is the value of a variable
    case cons.cons.nil =>
      obtain _ | _ | _ := part
      case succ.zero => exact name?_bare (by simpa [Node.parenthesesInPlace] using hs)
      all_goals rfl
    all_goals rfl
  all_goals rfl

theorem boundName?_bare (h : ∀ s ∈ above, s.node.parenthesesInPlace = true) :
    boundName? (bareSteps above) = boundName? above := by
  induction above with
  | nil => rfl
  | cons s above ih =>
    by_cases hs : s.node.isParentheses = true
    · rw [bareSteps_cons_parentheses hs, ih fun t ht => h t (List.mem_cons_of_mem _ ht)]
      simp [boundName?, hs]
    · have hs : s.node.isParentheses = false := by simpa using hs
      rw [bareSteps_cons hs]
      exact boundName?_cons_bare hs (h s List.mem_cons_self) _ _

/-- At every node that is no parentheses, the same callable stands with the parentheses and without
them. -/
theorem callable?_bare (hm : ∀ p ∈ m.places, p.node.parenthesesInPlace = true)
    (hp : p ∈ m.places) (h : p.node.isParentheses = false) : p.bare.callable? = p.callable? := by
  have hdeclared := isDeclaredDefault_bare hm hp
  have hbound : boundName? (bareSteps p.above) = boundName? p.above := by
    refine boundName?_bare fun s hs => ?_
    obtain ⟨o, ho, hnode⟩ := exists_place_of_step hp hs
    exact hnode ▸ hm o ho
  have hplain := hm p hp
  obtain ⟨⟨construct, span, parts⟩, above⟩ := p
  rw [Place.bare, bare_of_not_parentheses h, allBare_eq_map]
  unfold Place.callable?
  cases construct
  case functionExpression =>
    dsimp only [Node.construct, Node.span] at hdeclared hbound ⊢
    rw [hdeclared, hbound]
  case arrow =>
    dsimp only [Node.construct, Node.span] at hbound ⊢
    rw [hbound]
  case classMember =>
    cases parts with
    | nil => rfl
    | cons key _ =>
      have hkey : key.isParentheses = false := by simpa [Node.parenthesesInPlace] using hplain
      simp only [Node.construct, Node.span, Node.parts, List.map_cons, keyName?_bare hkey]
  all_goals rfl

theorem callable?_of_parentheses (h : p.node.isParentheses = true) : p.callable? = none := by
  obtain ⟨span, inner, hnode⟩ := eq_of_isParentheses h
  simp [Place.callable?, hnode]

theorem discover_bare (hm : ∀ p ∈ m.places, p.node.parenthesesInPlace = true) :
    discover m.bare = discover m := by
  rw [discover_eq_filterMap, discover_eq_filterMap, Module.places_bare, List.filterMap_map,
    List.filterMap_filter]
  refine List.filterMap_congr fun p hp => ?_
  by_cases h : p.node.isParentheses = true
  · simp [h, callable?_of_parentheses h]
  · have h : p.node.isParentheses = false := by simpa using h
    simp [h, callable?_bare hm hp h]

/-- Taking all parentheses of a module away leaves its records as they are. No parentheses are left, each
other node keeps its place, and at its place the same callable stands as before, if any: what is bound to a
name stays so, and what is not does not get bound. -/
theorem parentheses_are_transparent (m : Module)
    (hm : ∀ p ∈ m.places, p.node.parenthesesInPlace = true) :
    (∀ p ∈ m.bare.places, p.node.isParentheses = false) ∧
      m.bare.places = (m.places.filter (!·.node.isParentheses)).map Place.bare ∧
      (∀ p ∈ m.places, p.node.isParentheses = false → p.bare.callable? = p.callable?) ∧
      discover m.bare = discover m ∧
      ∀ file text, callableRecords file text m.bare = callableRecords file text m := by
  have hdiscover := discover_bare hm
  refine ⟨fun p hp => ?_, Module.places_bare m, fun p hp h => callable?_bare hm hp h, hdiscover, ?_⟩
  · rw [Module.places_bare, List.mem_map] at hp
    obtain ⟨q, -, rfl⟩ := hp
    exact isParentheses_bare q.node
  · intro file text
    rw [callableRecords, callableRecords, hdiscover]

/-- Functions in parentheses, bound to a name and not. -/
def sampleParentheses : List Char :=
  ("const f = ((function () \x7b (g) => ((g)); \x7d)), h = (() => [(() => 1)]);\n" ++
    "(function () \x7b\x7d)();\nexport default (function () \x7b var k = (((() => 2))); \x7d);").toList

theorem parentheses_are_transparent_sample :
    ∃ m, parse "a.js" sampleParentheses = .ok m ∧
      (∀ p ∈ m.places, p.node.parenthesesInPlace = true) ∧
      (m.places.filter (·.node.isParentheses)).length = 11 ∧
      (discover m).map (·.name) = [some "f", some "h", some "k"] ∧
      (∀ p ∈ m.bare.places, p.node.isParentheses = false) ∧
      ∀ file text, callableRecords file text m.bare = callableRecords file text m := by
  have hsample : ∃ m, parse "a.js" sampleParentheses = .ok m ∧
      (∀ p ∈ m.places, p.node.parenthesesInPlace = true) ∧
      (m.places.filter (·.node.isParentheses)).length = 11 ∧
      (discover m).map (·.name) = [some "f", some "h", some "k"] :=
    exists_ok_of_any (by decide +kernel)
  obtain ⟨m, hread, hm, hcount, hnames⟩ := hsample
  obtain ⟨hnone, -, -, -, hrecords⟩ := parentheses_are_transparent m hm
  exact ⟨m, hread, hm, hcount, hnames, hnone, hrecords⟩

end Census.Script
