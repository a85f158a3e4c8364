import Census.Callable.Discovery
import Census.Proofs.Script.Places
/-!
Callables at places. Whether a callable stands at a place is told from the node and the nodes around
it. The visit from the top hands the name of a variable down to its initial value instead; it finds
the same callables in the same order.
-/

namespace Census.Script

def Node.isParentheses : Node → Bool
  | .mk .parenthesized _ [_] => true
  | _ => false

/-- The place below a chain is what a default export declares. -/
def isDeclaredDefault : List Step → Bool
  | ⟨.mk .exportDefaultDeclaration _ [_], _⟩ :: _ => true
  | _ => false

/-- The variable whose initial value stands below a chain, in parentheses or not. -/
def boundName? (above : List Step) : Option Name :=
  match above.dropWhile (·.node.isParentheses) with
  | ⟨.mk .declarator _ [target, _], 1⟩ :: _ => target.name?
  | _ => none

/-- The callable that stands at a place. -/
def Place.callable? (p : Place) : Option Callable :=
  match p.node with
  | .mk (.functionDeclaration name) span _ =>
    some ⟨some name.text, span.start, .functionDeclaration⟩
  | .mk (.functionExpression name) span _ =>
    if isDeclaredDefault p.above then some ⟨name.map (·.text), span.start, .functionDeclaration⟩
    else (boundName? p.above).map fun v => ⟨some v.text, span.start, .functionExpression⟩
  | .mk (.arrow _) span _ =>
    (boundName? p.above).map fun v => ⟨some v.text, span.start, .arrowFunction⟩
  | .mk (.classMember role) span (key :: _) => some ⟨keyName? key, span.start, .classMember role⟩
  | _ => none

/-! ## What a node gets from the nodes above it -/

/-- The callable that a node is because of what is around it. The visit from the top records it at
the nodes above. -/
def lent (above : List Step) (n : Node) : List Callable :=
  if isDeclaredDefault above then declaredCallable n
  else (boundName? above).toList.flatMap fun v => boundCallable v.text n

/-- The callables of a list of parts, each with the one that is lent to it. -/
def lentAndOwn (above : List Step) (owner : Node) (i : Nat) : List Node → List Callable
  | [] => []
  | n :: ns =>
    lent (⟨owner, i⟩ :: above) n ++ callables n ++ lentAndOwn above owner (i + 1) ns

theorem callables_of_name {n : Node} {name : Name} (hn : n.name? = some name) :
    callables n = [] := by
  unfold Node.name? at hn
  split at hn
  · rfl
  · exact absurd hn (by simp)

/-- A name is only handed down to the initial value of a variable, through parentheses, and a default
export only to what it declares. -/
def Node.handsDown : Node → Bool
  | .mk .parenthesized _ [_] | .mk .declarator _ [_, _] | .mk .exportDefaultDeclaration _ [_] => true
  | _ => false

theorem lent_eq_nil {above : List Step} {n : Node} (hd : isDeclaredDefault above = false)
    (hb : boundName? above = none) : lent above n = [] := by
  simp [lent, hd, hb]

theorem lent_part {owner n : Node} {above : List Step} {i : Nat} (h : owner.handsDown = false) :
    lent (⟨owner, i⟩ :: above) n = [] := by
  have hp : owner.isParentheses = false := by
    unfold Node.isParentheses
    split
    · simp [Node.handsDown] at h
    · rfl
  apply lent_eq_nil
  · unfold isDeclaredDefault
    split
    · simp_all [Node.handsDown]
    · rfl
  · unfold boundName?
    rw [List.dropWhile_cons_of_neg (by simp [hp])]
    split
    · simp_all [Node.handsDown]
    · rfl

theorem lentAndOwn_eq {owner : Node} {above : List Step} (h : owner.handsDown = false) (i : Nat)
    (parts : List Node) : lentAndOwn above owner i parts = callablesOfAll parts := by
  induction parts generalizing i with
  | nil => rfl
  | cons n ns ih => simp [lentAndOwn, callablesOfAll, lent_part h, ih]

theorem boundName?_of_declared {above : List Step} (h : isDeclaredDefault above = true) :
    boundName? above = none := by
  unfold isDeclaredDefault at h
  split at h
  · rfl
  · exact absurd h (by simp)

/-- Only functions and arrow functions are ever lent, and only through parentheses. -/
theorem lent_of_plain {above : List Step} {n : Node} (hd : declaredCallable n = [])
    (hb : ∀ name, boundCallable name n = []) : lent above n = [] := by
  unfold lent
  split
  · exact hd
  · simp [hb]

/-- Parentheses hand down what they get. -/
theorem lent_parenthesized {above : List Step} {span : Span} {inner : Node} :
    lent (⟨.mk .parenthesized span [inner], 0⟩ :: above) inner =
      lent above (.mk .parenthesized span [inner]) := by
  have hb : boundName? (⟨.mk .parenthesized span [inner], 0⟩ :: above) = boundName? above := by
    simp [boundName?, Node.isParentheses]
  by_cases hd : isDeclaredDefault above = true
  · rw [lent_eq_nil rfl (hb.trans (boundName?_of_declared hd)), lent, if_pos hd]
    rfl
  · rw [lent, lent, if_neg hd, hb]
    rfl

/-! ## One node -/

/-- A node that hands nothing down is recorded by the visit at the node itself or above it. -/
theorem callable?_eq_lent_own {n : Node} {above : List Step} (h : n.handsDown = false) :
    (Place.mk n above).callable?.toList = lent above n ++ ownCallables n := by
  unfold Place.callable?
  dsimp only
  split
  case h_1 name span parts =>
    rw [lent_of_plain rfl fun _ => rfl]
    rfl
  case h_2 name span parts =>
    by_cases hd : isDeclaredDefault above = true
    · simp [lent, hd, declaredCallable, ownCallables]
    · cases hb : boundName? above <;> simp [lent, hd, hb, boundCallable, ownCallables]
  case h_3 blockBody span parts =>
    by_cases hd : isDeclaredDefault above = true
    · simp [lent, hd, boundName?_of_declared hd, declaredCallable, ownCallables]
    · cases hb : boundName? above <;> simp [lent, hd, hb, boundCallable, ownCallables]
  case h_4 role span key rest =>
    rw [lent_of_plain rfl fun _ => rfl]
    rfl
  case h_5 hdeclaration hfunction harrow hmember =>
    have hd : declaredCallable n = [] := by
      unfold declaredCallable
      split
      · exact absurd rfl (hfunction _ _ _)
      · rfl
    have hb : ∀ name, boundCallable name n = [] := by
      intro name
      unfold boundCallable
      split
      · exact absurd h (by simp [Node.handsDown])
      · exact absurd rfl (hfunction _ _ _)
      · exact absurd rfl (harrow _ _ _)
      · rfl
    have ho : ownCallables n = [] := by
      unfold ownCallables
      split
      · exact absurd rfl (hdeclaration _ _ _)
      · exact absurd h (by simp [Node.handsDown])
      · exact absurd rfl (hmember _ _ _ _)
      · exact absurd h (by simp [Node.handsDown])
      · rfl
    rw [lent_of_plain hd hb, ho]
    rfl

/-- What a visit records at a node and, for its parts, because of the node, it records in the order
of the places. -/
theorem callable?_lentAndOwn (n : Node) (above : List Step) :
    (Place.mk n above).callable?.toList ++ lentAndOwn above n 0 n.parts =
      lent above n ++ callables n := by
  by_cases h : n.handsDown = true
  · unfold Node.handsDown at h
    split at h
    case h_1 span inner =>
      rw [Node.parts, lentAndOwn, lent_parenthesized]
      simp [Place.callable?, lentAndOwn, callables, callablesOfAll, ownCallables]
    -- The visit records the value at the declarator, the places have it behind those of the target.
    case h_2 span target value =>
      have htarget : boundName? (⟨.mk .declarator span [target, value], 0⟩ :: above) = none := rfl
      have hvalue : boundName? (⟨.mk .declarator span [target, value], 1⟩ :: above) =
          target.name? := rfl
      rw [lent_of_plain rfl fun _ => rfl, Node.parts, lentAndOwn, lentAndOwn,
        lent_eq_nil rfl htarget]
      cases hn : target.name? with
      | none =>
        rw [lent_eq_nil rfl (hvalue.trans hn)]
        simp [Place.callable?, lentAndOwn, callables, callablesOfAll, ownCallables, hn]
      | some name =>
        rw [lent, if_neg (by simp [isDeclaredDefault]), hvalue, hn]
        simp [Place.callable?, lentAndOwn, callables, callablesOfAll, ownCallables, hn,
          callables_of_name hn]
    case h_3 span inner =>
      have hdefault : isDeclaredDefault (⟨.mk .exportDefaultDeclaration span [inner], 0⟩ :: above) =
          true := rfl
      rw [lent_of_plain rfl fun _ => rfl, Node.parts, lentAndOwn, lent, if_pos hdefault]
      simp [Place.callable?, lentAndOwn, callables, callablesOfAll, ownCallables]
    case h_4 => exact absurd h (by simp)
  · have h : n.handsDown = false := by simpa using h
    rw [callable?_eq_lent_own h, lentAndOwn_eq h, List.append_assoc]
    cases n
    rfl

/-! ## All nodes -/

mutual

theorem filterMap_places (n : Node) (above : List Step) :
    (n.places above).filterMap Place.callable? = lent above n ++ callables n := by
  match n with
  | .mk construct span parts =>
    rw [← callable?_lentAndOwn, Node.places, List.filterMap_cons]
    simp only [Node.parts]
    rw [filterMap_placesFrom parts above _ 0]
    cases Place.callable? ⟨.mk construct span parts, above⟩ <;> rfl

theorem filterMap_placesFrom (parts : List Node) (above : List Step) (owner : Node) (i : Nat) :
    (Node.placesFrom above owner i parts).filterMap Place.callable? =
      lentAndOwn above owner i parts := by
  match parts with
  | [] => rfl
  | n :: ns =>
    rw [Node.placesFrom, List.filterMap_append, filterMap_places n _,
      filterMap_placesFrom ns above owner (i + 1), lentAndOwn]

end

theorem callablesOfAll_eq_flatMap (ns : List Node) : callablesOfAll ns = ns.flatMap callables := by
  induction ns with
  | nil => rfl
  | cons n ns ih => rw [callablesOfAll, ih, List.flatMap_cons]

theorem discover_eq_filterMap (m : Module) : discover m = m.places.filterMap Place.callable? := by
  rw [discover, callablesOfAll_eq_flatMap, Module.places, List.filterMap_flatMap]
  apply List.flatMap_congr
  intro n _
  rw [filterMap_places n []]
  rfl

end Census.Script
