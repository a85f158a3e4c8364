import Mathlib
import Census.Script.Grammar.Class
/-!
Values within the last characters of a text. A position counts the characters from there to the end, so
in what is read from so many characters no position exceeds their number, whatever stands before them.
Nor is any token at the end of the text, so that a function, which takes tokens, starts before the end.
Beside its positions, the keys of its class members are kept in view of a tree: a member is read after its key,
and as the constructor only if the key says so.
Here it is said of every sort of value that a reader handles what it means to be within a number of
characters, and of a reader what it means to keep to it.
-/

namespace Census.Script

open Census.Text (Pos)
open Std.Do

/-- Values that hold positions. -/
class Positioned (α : Type) where
  /-- All positions in a value are at most so many characters before the end of the text. -/
  Within : Pos → α → Prop

export Positioned (Within)

variable {α β : Type} {n : Pos}

/-! ## Plain values -/

instance : Positioned Pos := ⟨fun n p => p ≤ n⟩

instance : Positioned Unit := ⟨fun _ _ => True⟩

instance : Positioned Bool := ⟨fun _ _ => True⟩

instance : Positioned MemberRole := ⟨fun _ _ => True⟩

instance [Positioned α] : Positioned (Option α) := ⟨fun n o => ∀ a, o = some a → Within n a⟩

instance [Positioned α] : Positioned (List α) := ⟨fun n as => ∀ a ∈ as, Within n a⟩

instance [Positioned α] [Positioned β] : Positioned (α × β) :=
  ⟨fun n p => Within n p.1 ∧ Within n p.2⟩

instance [Positioned α] [Positioned β] : Positioned (α ⊕ β) :=
  ⟨fun n s => (∀ a, s = .inl a → Within n a) ∧ ∀ b, s = .inr b → Within n b⟩

instance [Positioned α] [Positioned β] : Positioned (Except α β) :=
  ⟨fun n r => (∀ a, r = .error a → Within n a) ∧ ∀ b, r = .ok b → Within n b⟩

@[simp, grind =] theorem within_pos {p : Pos} : Within n p ↔ p ≤ n := Iff.rfl

theorem sub_within {p : Pos} (h : p ≤ n) (k : Nat) : p - k ≤ n := Nat.le_trans (Nat.sub_le p k) h

@[simp, grind .] theorem within_unit (u : Unit) : Within n u := trivial

@[simp, grind .] theorem within_bool (b : Bool) : Within n b := trivial

@[simp, grind .] theorem within_role (r : MemberRole) : Within n r := trivial

section

variable [Positioned α] [Positioned β]

@[simp, grind .] theorem within_none : Within n (none : Option α) := by simp [Within]

@[simp, grind =] theorem within_some {a : α} : Within n (some a) ↔ Within n a := by simp [Within]

@[simp, grind =] theorem within_toList {o : Option α} : Within n o.toList ↔ Within n o := by
  simp [Within]

@[simp, grind .] theorem within_nil : Within n ([] : List α) := by simp [Within]

@[simp, grind =] theorem within_cons {a : α} {as : List α} :
    Within n (a :: as) ↔ Within n a ∧ Within n as := by
  simp [Within]

@[simp, grind =] theorem within_append {as bs : List α} :
    Within n (as ++ bs) ↔ Within n as ∧ Within n bs := by
  simp [Within, or_imp, forall_and]

@[simp, grind =] theorem within_reverse {as : List α} : Within n as.reverse ↔ Within n as := by
  simp [Within]

@[simp, grind =] theorem within_pair {a : α} {b : β} :
    Within n (a, b) ↔ Within n a ∧ Within n b :=
  Iff.rfl

@[simp, grind =] theorem within_inl {a : α} : Within n (Sum.inl a : α ⊕ β) ↔ Within n a := by
  simp [Within]

@[simp, grind =] theorem within_inr {b : β} : Within n (Sum.inr b : α ⊕ β) ↔ Within n b := by
  simp [Within]

@[simp, grind =] theorem within_error {a : α} : Within n (Except.error a : Except α β) ↔ Within n a := by
  simp [Within]

@[simp, grind =] theorem within_ok {b : β} : Within n (Except.ok b : Except α β) ↔ Within n b := by
  simp [Within]

theorem Within.head? {as : List α} (h : Within n as) : Within n as.head? :=
  fun a ha => h a (List.mem_of_head? ha)

@[grind →] theorem Within.of_find? {as : List α} {p : α → Bool} {a : α} (h : Within n as)
    (ha : as.find? p = some a) : Within n a :=
  h a (List.mem_of_find?_eq_some ha)

@[grind →] theorem Within.of_mem {as : List α} {a : α} (h : Within n as) (ha : a ∈ as) : Within n a :=
  h a ha

end

/-! ## Spans, faults and trees -/

instance : Positioned Span := ⟨fun n s => Within n s.start⟩

instance : Positioned Fault := ⟨fun n f => Within n f.pos⟩

instance : Positioned Ident := ⟨fun n i => Within n i.span⟩

instance : Positioned Construct :=
  ⟨fun n c => ∀ comma, c = .array (some comma) ∨ c = .object (some comma) → comma ≤ n⟩

/-- The nodes that callables are made of. -/
abbrev Construct.isFunction : Construct → Bool
  | .functionDeclaration _ | .functionExpression _ | .arrow _ | .classMember _ => true
  | _ => false

/-- What can name a member of a class. -/
abbrev Construct.isKey : Construct → Bool
  | .identifier _ | .privateName _ | .stringLiteral _ | .numberLiteral _ | .bigintLiteral
  | .computedKey => true
  | _ => false

def Node.isKey (n : Node) : Bool := n.construct.isKey

/-- A class member has a key, and a constructor the key that makes it one. -/
abbrev Construct.KeyFits : Construct → List Node → Prop
  | .classMember role, key :: _ =>
    key.isKey = true ∧ (role = .construct → isConstructorKey key = true)
  | .classMember _, [] => False
  | _, _ => True

/-- All nodes of a tree start within the last characters, and its functions before the end. The keys of
its class members fit. -/
inductive Node.AllWithin (n : Pos) : Node → Prop where
  | mk {c : Construct} {s : Span} {parts : List Node} : Within n c → Within n s →
      (c.isFunction = true → 0 < s.start ∧ c.KeyFits parts) → (∀ p ∈ parts, Node.AllWithin n p) →
      Node.AllWithin n (.mk c s parts)

instance : Positioned Node := ⟨Node.AllWithin⟩

@[simp, grind =] theorem within_span {start stop : Pos} : Within n (Span.mk start stop) ↔ start ≤ n :=
  Iff.rfl

@[simp, grind =] theorem within_fault {pos : Pos} {cause : Cause} :
    Within n (Fault.mk pos cause) ↔ pos ≤ n :=
  Iff.rfl

@[simp, grind =] theorem within_ident {name : Name} {span : Span} :
    Within n (Ident.mk name span) ↔ Within n span :=
  Iff.rfl

@[grind =] theorem within_construct {c : Construct} :
    Within n c ↔ ∀ comma, c = .array (some comma) ∨ c = .object (some comma) → comma ≤ n :=
  Iff.rfl

@[simp, grind =] theorem within_array {comma : Option Pos} :
    Within n (Construct.array comma) ↔ Within n comma := by
  simp [Within]

@[simp, grind =] theorem within_object {comma : Option Pos} :
    Within n (Construct.object comma) ↔ Within n comma := by
  simp [Within]

@[simp, grind =] theorem within_node {c : Construct} {s : Span} {parts : List Node} :
    Within n (Node.mk c s parts) ↔
      Within n c ∧ Within n s ∧ (c.isFunction = true → 0 < s.start ∧ c.KeyFits parts) ∧
        Within n parts := by
  constructor
  · rintro ⟨hc, hs, hfunction, hparts⟩
    exact ⟨hc, hs, hfunction, hparts⟩
  · rintro ⟨hc, hs, hfunction, hparts⟩
    exact .mk hc hs hfunction hparts

@[simp, grind =] theorem Node.start_mk {c : Construct} {s : Span} {parts : List Node} :
    (Node.mk c s parts).start = s.start :=
  rfl

@[simp, grind =] theorem Node.isKey_mk {c : Construct} {s : Span} {parts : List Node} :
    (Node.mk c s parts).isKey = c.isKey :=
  rfl

@[simp, grind =] theorem Ident.isKey_node {ident : Ident} : ident.node.isKey = true := rfl

@[simp, grind =] theorem Ident.start_node {ident : Ident} : ident.node.start = ident.start := rfl

section

variable {node : Node} {ident : Ident} {fault : Fault} {span : Span}

@[grind →] theorem Within.span_start (h : Within n span) : span.start ≤ n := h

@[grind →] theorem Within.fault_pos (h : Within n fault) : fault.pos ≤ n := h

@[grind →] theorem Within.ident_start (h : Within n ident) : ident.start ≤ n := h

@[grind →] theorem Within.ident_node (h : Within n ident) : Within n ident.node :=
  within_node.mpr ⟨by simp [within_construct], h, by simp, within_nil⟩

@[grind .] theorem Within.ident_nodes {o : Option Ident} (h : Within n o) :
    Within n (o.map Ident.node) := by
  cases o with
  | none => simp
  | some ident => exact within_some.mpr (Within.ident_node (within_some.mp h))

@[grind ←] theorem Within.node_span (h : Within n node) : Within n node.span := by
  cases node
  exact (within_node.mp h).2.1

@[grind →] theorem Within.node_start (h : Within n node) : node.start ≤ n :=
  Within.node_span h

theorem Within.start_getD {o : Option Node} {p : Pos} (h : Within n o) (hp : p ≤ n) :
    (o.map Node.start).getD p ≤ n := by
  cases o with
  | none => exact hp
  | some node => exact Within.node_start (within_some.mp h)

@[grind ←] theorem Within.node_parts (h : Within n node) : Within n node.parts := by
  cases node
  exact (within_node.mp h).2.2.2

end

/-! ## Tokens and states -/

/-- The faults that a kind of token holds. -/
@[simp] def Kind.faults : Kind → List Fault
  | .broken fault => [fault]
  | .templateWhole bad | .templateHead bad | .templateMiddle bad | .templateTail bad => bad.toList
  | _ => []

instance : Positioned Kind := ⟨fun n k => Within n k.faults⟩

/-- The kinds that stand for characters of the text. -/
@[grind] def Kind.isToken : Kind → Bool
  | .eof | .broken _ => false
  | _ => true

instance : Positioned Cursor := ⟨fun n c => c.pos ≤ n ∧ c.pos = c.rest.length⟩

instance : Positioned Lexeme := ⟨fun n l => Within n l.kind ∧ Within n l.faults⟩

instance : Positioned Token :=
  ⟨fun n t => Within n t.kind ∧ Within n t.source ∧ Within n t.stop ∧
    (t.kind.isToken = true → 0 < t.start)⟩

instance : Positioned Lexed :=
  ⟨fun n l => Within n l.token ∧ Within n l.cursor ∧ Within n l.faults ∧
    l.cursor.pos ≤ l.token.start⟩

/-- All that a state holds is within the last `n` characters, apart from where an arrow function may
start, which is only compared. What is still to be read, from the current token on, is within the last
`k`. -/
structure State.AllWithin (n k : Pos) (s : State) : Prop where
  token : Within n s.token
  cursor : Within n s.cursor
  ahead : Within n s.ahead
  previous : Within n s.previous
  faults : Within n s.faults
  postponed : Within n s.postponed
  start_le : s.token.start ≤ k
  cursor_le : s.cursor.pos ≤ s.token.start
  ahead_le : ∀ next, s.ahead = some next → next.token.start ≤ s.token.start

@[simp, grind =] theorem within_cursor {rest : List Char} {pos : Pos} :
    Within n (Cursor.mk rest pos) ↔ pos ≤ n ∧ pos = rest.length :=
  Iff.rfl

@[simp] theorem within_kind {k : Kind} : Within n k ↔ Within n k.faults := Iff.rfl

@[grind =] theorem within_brokenKind {fault : Fault} :
    Within n (Kind.broken fault) ↔ Within n fault := by
  simp

section

variable {bad : Option Fault}

@[grind =] theorem within_templateWhole : Within n (Kind.templateWhole bad) ↔ Within n bad := by
  cases bad <;> simp

@[grind =] theorem within_templateHead : Within n (Kind.templateHead bad) ↔ Within n bad := by
  cases bad <;> simp

@[grind =] theorem within_templateMiddle : Within n (Kind.templateMiddle bad) ↔ Within n bad := by
  cases bad <;> simp

@[grind =] theorem within_templateTail : Within n (Kind.templateTail bad) ↔ Within n bad := by
  cases bad <;> simp

end

@[simp, grind =] theorem within_lexeme {kind : Kind} {used : Nat} {faults : List Fault} :
    Within n (Lexeme.mk kind used faults) ↔ Within n kind ∧ Within n faults :=
  Iff.rfl

section

variable {cursor : Cursor} {token : Token} {lexed : Lexed} {state : State} {k m : Pos}

theorem Within.cursor_pos (h : Within n cursor) : cursor.pos ≤ n := h.1

theorem Within.cursor_length (h : Within n cursor) : cursor.pos = cursor.rest.length := h.2

theorem Within.token_kind (h : Within n token) : Within n token.kind := h.1

theorem Within.token_source (h : Within n token) : Within n token.source := h.2.1

@[grind →] theorem Within.token_start (h : Within n token) : token.start ≤ n := h.2.1.1

@[grind →] theorem Within.token_stop (h : Within n token) : token.stop ≤ n := h.2.2.1

theorem Within.start_pos (h : Within n token) (ht : token.kind.isToken = true) : 0 < token.start :=
  h.2.2.2 ht

theorem Within.lexed_token (h : Within n lexed) : Within n lexed.token := h.1

theorem Within.lexed_cursor (h : Within n lexed) : Within n lexed.cursor := h.2.1

theorem Within.lexed_faults (h : Within n lexed) : Within n lexed.faults := h.2.2.1

theorem Within.cursor_le_start (h : Within n lexed) : lexed.cursor.pos ≤ lexed.token.start := h.2.2.2

@[grind .] theorem allWithin_arrowStart (h : state.AllWithin n k) (arrowStart : Option Pos) :
    State.AllWithin n k { state with arrowStart := arrowStart } :=
  ⟨h.token, h.cursor, h.ahead, h.previous, h.faults, h.postponed, h.start_le, h.cursor_le, h.ahead_le⟩

/-- What is still to be read may be bounded less closely. -/
theorem State.AllWithin.mono (h : state.AllWithin n m) (hm : m ≤ k) : state.AllWithin n k :=
  { h with start_le := Nat.le_trans h.start_le hm }

end

/-! ## Readers -/

/-- A reader keeps to the last characters of a text: its result, its fault and the state that it leaves are
within them, and it does not go back. -/
abbrev Keeps [Positioned α] (n k : Pos) (p : Parse α) : Prop :=
  ⦃fun s => ⌜s.AllWithin n k⌝⦄ p
    ⦃post⟨fun a s => ⌜Within n a ∧ s.AllWithin n k⌝,
      fun fault s => ⌜Within n fault ∧ s.AllWithin n k⌝⟩⦄

/-- A reader that keeps to the last characters, and something more about its results. -/
abbrev KeepsAnd [Positioned α] (n k : Pos) (Q : α → Prop) (p : Parse α) : Prop :=
  ⦃fun s => ⌜s.AllWithin n k⌝⦄ p
    ⦃post⟨fun a s => ⌜Within n a ∧ Q a ∧ s.AllWithin n k⌝,
      fun fault s => ⌜Within n fault ∧ s.AllWithin n k⌝⟩⦄

/-- A test for a token, which does not hold at the end of the text. -/
abbrev Tests (n k : Pos) (p : Parse Bool) : Prop := KeepsAnd n k (fun b => b = true → 0 < k) p

/-- A reader that takes a token, and fails at the end of the text. -/
abbrev Takes [Positioned α] (n k : Pos) (p : Parse α) : Prop := KeepsAnd n k (fun _ => 0 < k) p

/-- A reader that keeps to the last characters and always fails. -/
abbrev Fails (n k : Pos) (p : Parse α) : Prop :=
  ⦃fun s => ⌜s.AllWithin n k⌝⦄ p
    ⦃post⟨fun _ _ => ⌜False⌝, fun fault s => ⌜Within n fault ∧ s.AllWithin n k⌝⟩⦄

/-- What a reader is said to do is what its run on every state does. -/
theorem triple_iff {p : Parse α} {P : State → Prop} {Q : α → State → Prop}
    {E : Fault → State → Prop} :
    ⦃fun s => ⌜P s⌝⦄ p ⦃post⟨fun a s => ⌜Q a s⌝, fun fault s => ⌜E fault s⌝⟩⦄ ↔
      ∀ s, P s →
        match p.run s with
        | .ok a s' => Q a s'
        | .error fault s' => E fault s' := by
  constructor
  · intro h s hs
    have hp := h s hs
    simp only [wp, PredTrans.apply, EStateM.run] at hp ⊢
    split at hp <;> simp_all
  · intro h s hs
    have hp := h s hs
    simp only [wp, PredTrans.apply, EStateM.run] at hp ⊢
    split <;> simp_all

theorem keeps_iff [Positioned α] {k : Pos} {p : Parse α} :
    Keeps n k p ↔ ∀ s, s.AllWithin n k →
      match p.run s with
      | .ok a s' => Within n a ∧ s'.AllWithin n k
      | .error fault s' => Within n fault ∧ s'.AllWithin n k :=
  triple_iff

/-- Where a reader starts, what is left to be read may be counted from the current token. -/
theorem keeps_of_start [Positioned α] {k : Pos} {p : Parse α}
    (h : ∀ start ≤ n,
      ⦃fun s => ⌜s.AllWithin n start ∧ s.token.start = start⌝⦄ p
        ⦃post⟨fun a s => ⌜Within n a ∧ s.AllWithin n start⌝,
          fun fault s => ⌜Within n fault ∧ s.AllWithin n start⌝⟩⦄) :
    Keeps n k p := by
  refine keeps_iff.mpr fun s hs => ?_
  have hstart : s.AllWithin n s.token.start := { hs with start_le := Nat.le_refl _ }
  have hrun := triple_iff.mp (h s.token.start (Within.token_start hs.token)) s ⟨hstart, rfl⟩
  cases hp : p.run s with
  | ok a s' =>
    rw [hp] at hrun
    exact ⟨hrun.1, hrun.2.mono hs.start_le⟩
  | error fault s' =>
    rw [hp] at hrun
    exact ⟨hrun.1, hrun.2.mono hs.start_le⟩

end Census.Script
