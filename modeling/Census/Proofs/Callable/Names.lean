import Census.Proofs.Callable.Places
import Census.Proofs.Except
import Census.Proofs.Script.Reading
/-!
Names of records. The sentinel stands for a name that is not there: at a default export without one, and at
a class member whose key is computed or a big integer. Only a key in quotes can say the same by itself, as
all other names consist of name characters or are numbers.
-/

namespace Census

open Census.Script
open Census.Text (Pos)
open Census.Number (Decimal Binary64 Numeral)

variable {m : Module} {p : Place} {c : Callable} {r : CallableRecord} {file : String}
  {text : List Char} {n : Pos} {key : Node}

/-! ## Texts of numbers -/

theorem Number.Decimal.mem_digitText {d : Decimal} {c : Char} (h : c ∈ d.digitText.toList) :
    c.isDigit = true := by
  simp only [Decimal.digitText, String.toList_ofList] at h
  exact Nat.isDigit_of_mem_toDigits (by omega) (by omega) h

theorem Number.Decimal.mem_zeros {k : Nat} {c : Char} (h : c ∈ (Decimal.zeros k).toList) :
    c.isDigit = true := by
  simp only [Decimal.zeros, String.toList_ofList] at h
  rw [List.eq_of_mem_replicate h]
  rfl

/-- A number without an exponent is written with digits and a point. -/
theorem Number.Decimal.mem_positional {d : Decimal} {c : Char} (h : c ∈ d.positional.toList) :
    c.isDigit = true ∨ c = '.' := by
  have hdigits (c : Char) (hc : c ∈ Nat.toDigits 10 d.digits) : c.isDigit = true :=
    Nat.isDigit_of_mem_toDigits (by omega) (by omega) hc
  unfold Decimal.positional at h
  split at h
  · split at h
    · exact .inl (by simp_all)
    · rw [String.toList_append, List.mem_append] at h
      exact .inl (h.elim mem_digitText mem_zeros)
  · dsimp only at h
    split at h
    · simp only [String.toList_append, String.toList_ofList, List.mem_append] at h
      rcases h with (h | h) | h
      · exact .inl (hdigits c (List.mem_of_mem_take h))
      · exact .inr (by simpa using h)
      · exact .inl (hdigits c (List.mem_of_mem_drop h))
    · simp only [String.toList_append, List.mem_append] at h
      rcases h with (h | h) | h
      · have hc : c = '0' ∨ c = '.' := by simpa using h
        exact hc.imp_left (by rintro rfl; rfl)
      · exact .inl (mem_zeros h)
      · exact .inl (mem_digitText h)

theorem Number.Numeral.text_ne_anonymous (n : Numeral) : n.text ≠ anonymous := by
  intro heq
  unfold Numeral.text at heq
  cases hv : n.value with
  | infinity =>
    rw [hv] at heq
    exact absurd heq (by decide)
  | finite s e =>
    rw [hv] at heq
    have hmem : '<' ∈ (Decimal.shortest s e).positional.toList := by
      rw [show (Decimal.shortest s e).positional = anonymous from heq]
      decide
    exact absurd (Decimal.mem_positional hmem) (by decide)

/-! ## Names -/

theorem Script.Name.notMem_text (name : Name) {c : Char} (hc : isNameChar c = false) :
    c ∉ name.text.toList := by
  intro hmem
  exact absurd ((List.all_eq_true.mp name.isName c hmem).symm.trans hc) (by simp)

theorem Script.Name.text_ne_anonymous (name : Name) : name.text ≠ anonymous := by
  intro heq
  refine name.notMem_text (c := '<') (by decide) ?_
  rw [heq]
  decide

/-- What the key of the class member at a place is. -/
def Script.Place.key? (p : Place) : Option Construct :=
  match p.node with
  | .mk (.classMember _) _ (key :: _) => some key.construct
  | _ => none

/-- Where the name of a callable is the sentinel: it has no name, or a key in quotes that says so. -/
inductive Script.Place.SaysAnonymous (p : Place) : Prop where
  | defaultFunction : p.node.construct = .functionExpression none →
      isDeclaredDefault p.above = true → p.SaysAnonymous
  | computedKey : p.key? = some .computedKey → p.SaysAnonymous
  | bigintKey : p.key? = some .bigintLiteral → p.SaysAnonymous
  | quotedKey : p.key? = some (.stringLiteral "<anonymous>") → p.SaysAnonymous

/-- What the name of a record says about the place of its callable. -/
structure TellsName (p : Place) (r : CallableRecord) : Prop where
  anonymous_iff : r.name = "<anonymous>" ↔ p.SaysAnonymous
  bound : r.kind = .functionExpression ∨ r.kind = .arrowFunction → r.name ≠ "<anonymous>"
  isConstructor : r.kind = .classMember .construct → r.name = "constructor"
  privateKey : ∀ name, p.key? = some (.privateName name) →
    r.name ≠ "<anonymous>" ∧ r.name.toList.head? ≠ some '#'
  numberKey : ∀ number, p.key? = some (.numberLiteral number) → r.name ≠ "<anonymous>"

/-- All nodes of a module that has been read are as the module is. -/
theorem Within.place (hm : Within n m) (hp : p ∈ m.places) : Within n p.node := by
  rw [mem_module_places] at hp
  induction hp with
  | top hn => exact hm _ hn
  | down _ hpart ih => exact Within.node_parts ih _ (List.mem_of_getElem? hpart)

theorem keyName?_of_isConstructorKey (h : isConstructorKey key = true) :
    keyName? key = some "constructor" := by
  unfold isConstructorKey at h
  unfold keyName?
  split at h
  · rename_i name hkey
    simp only [hkey, eq_of_beq h]
  · rename_i value hkey
    simp only [hkey, eq_of_beq h]
  · exact absurd h (by simp)

/-- The name of a member is the sentinel if its key is computed, a big integer, or the sentinel in
quotes. -/
theorem keyName?_getD_eq_anonymous (h : key.isKey = true) :
    (keyName? key).getD anonymous = anonymous ↔ key.construct = .computedKey ∨
      key.construct = .bigintLiteral ∨ key.construct = .stringLiteral anonymous := by
  unfold Node.isKey at h
  unfold keyName?
  cases hkey : key.construct with
  | identifier name => simp [Name.text_ne_anonymous]
  | privateName name => simp [Name.text_ne_anonymous]
  | stringLiteral value => simp
  | numberLiteral number => simp [Number.Numeral.text_ne_anonymous]
  | bigintLiteral => simp
  | computedKey => simp
  | _ =>
    rw [hkey] at h
    cases h

/-- Where a member stands, its key fits. -/
theorem keyFits_of_read (hm : Within n m) (hp : p ∈ m.places) {role : MemberRole} {span : Span}
    {rest : List Node} (hnode : p.node = .mk (.classMember role) span (key :: rest)) :
    key.isKey = true ∧ (role = .construct → isConstructorKey key = true) := by
  have hwithin := Within.place hm hp
  rw [hnode] at hwithin
  exact ((within_node.mp hwithin).2.2.1 rfl).2

theorem tellsName_member (hm : Within n m) (hp : p ∈ m.places) {role : MemberRole} {span : Span}
    {rest : List Node} (hnode : p.node = .mk (.classMember role) span (key :: rest))
    (hr : r.name = (keyName? key).getD anonymous) (hkind : r.kind = .classMember role) :
    TellsName p r := by
  obtain ⟨hkey, hconstructor⟩ := keyFits_of_read hm hp hnode
  have hkey? : p.key? = some key.construct := by rw [Place.key?, hnode]
  have hiff : r.name = "<anonymous>" ↔ p.SaysAnonymous := by
    rw [hr]
    refine (keyName?_getD_eq_anonymous hkey).trans ⟨?_, ?_⟩
    · rintro (h | h | h)
      · exact .computedKey (hkey?.trans (congrArg some h))
      · exact .bigintKey (hkey?.trans (congrArg some h))
      · exact .quotedKey (hkey?.trans (congrArg some h))
    · rintro (⟨h, -⟩ | h | h | h)
      · rw [hnode] at h
        cases h
      · exact .inl (Option.some.inj (hkey?.symm.trans h))
      · exact .inr (.inl (Option.some.inj (hkey?.symm.trans h)))
      · exact .inr (.inr (Option.some.inj (hkey?.symm.trans h)))
  have hname (c : Construct) (hc : p.key? = some c) : key.construct = c :=
    Option.some.inj (hkey?.symm.trans hc)
  exact
    { anonymous_iff := hiff
      bound := by simp [hkind]
      isConstructor := by
        rw [hkind, hr]
        intro h
        rw [keyName?_of_isConstructorKey (hconstructor (CallableKind.classMember.inj h))]
        rfl
      privateKey := by
        intro name hprivate
        have hr : r.name = name.text := by rw [hr, keyName?, hname _ hprivate, Option.getD_some]
        rw [hr]
        refine ⟨name.text_ne_anonymous, fun hhead => ?_⟩
        exact name.notMem_text (by decide) (List.mem_of_head? hhead)
      numberKey := by
        intro number hnumber
        rw [hr, keyName?, hname _ hnumber, Option.getD_some]
        exact number.text_ne_anonymous }

@[simp] theorem Callable.record_name : (c.record file text).name = c.name.getD anonymous := rfl

@[simp] theorem Callable.record_kind : (c.record file text).kind = c.kind := rfl

/-- A function that is no member has the sentinel for its name only where a default export declares it
without one. -/
theorem tellsName_function (hkey : p.key? = none) (hkind : ∀ role, r.kind ≠ .classMember role)
    (hiff : r.name = anonymous ↔
      p.node.construct = .functionExpression none ∧ isDeclaredDefault p.above = true)
    (hbound : r.kind = .functionExpression ∨ r.kind = .arrowFunction → r.name ≠ anonymous) :
    TellsName p r where
  anonymous_iff := by
    refine hiff.trans ⟨fun h => .defaultFunction h.1 h.2, ?_⟩
    rintro (⟨hnode, habove⟩ | h | h | h)
    · exact ⟨hnode, habove⟩
    · exact absurd (hkey.symm.trans h) (by simp)
    · exact absurd (hkey.symm.trans h) (by simp)
    · exact absurd (hkey.symm.trans h) (by simp)
  bound := hbound
  isConstructor h := absurd h (hkind _)
  privateKey _ h := absurd (hkey.symm.trans h) (by simp)
  numberKey _ h := absurd (hkey.symm.trans h) (by simp)

theorem tellsName_record (hm : Within n m) (hp : p ∈ m.places) (hc : p.callable? = some c)
    (file : String) (text : List Char) : TellsName p (c.record file text) := by
  obtain ⟨node, above⟩ := p
  unfold Place.callable? at hc
  dsimp only at hc
  split at hc
  case h_1 name span parts =>
    obtain rfl := Option.some.inj hc
    have hname := name.text_ne_anonymous
    exact tellsName_function rfl (by simp)
      (by simpa [Node.construct] using hname)
      (by simp)
  case h_2 name span parts =>
    by_cases hdeclared : isDeclaredDefault above = true
    · rw [if_pos hdeclared] at hc
      obtain rfl := Option.some.inj hc
      refine tellsName_function rfl (by simp) ?_
        (by simp)
      cases name with
      | none => simp [Node.construct, hdeclared]
      | some name =>
        simpa [Node.construct] using name.text_ne_anonymous
    · rw [if_neg hdeclared] at hc
      obtain ⟨v, -, rfl⟩ := Option.map_eq_some_iff.mp hc
      have hname := v.text_ne_anonymous
      exact tellsName_function rfl (by simp)
        (by simpa [hdeclared] using hname)
        (by simpa using hname)
  case h_3 blockBody span parts =>
    obtain ⟨v, -, rfl⟩ := Option.map_eq_some_iff.mp hc
    have hname := v.text_ne_anonymous
    exact tellsName_function rfl (by simp)
      (by simpa [Node.construct] using hname)
      (by simpa using hname)
  case h_4 role span key rest =>
    obtain rfl := Option.some.inj hc
    exact tellsName_member hm hp rfl rfl rfl
  case h_5 => cases hc

/-- In every script that is a module, the name of a record is the sentinel exactly where the callable has
no name, at a default export without one and at a class member whose key is computed or a big integer, and
where a key in quotes says the same. Functions that are bound to a name, private members and members with
numbers for keys have other names, a constructor is called that, and the name of a private member does not
start with its sign. -/
theorem sentinel_iff_without_name {file : String} {text : List Char} {m : Module}
    (h : parse file text = .ok m) :
    (callableRecords file text m =
        m.places.filterMap fun p => p.callable?.map (·.record file text)) ∧
      ∀ p ∈ m.places, ∀ c, p.callable? = some c → TellsName p (c.record file text) := by
  have hread : Module.read text = .ok m := by
    unfold parse at h
    split at h
    · rename_i m' hm'
      exact hm'.trans (congrArg Except.ok (Except.ok.inj h))
    · cases h
  have hwithin : Within text.length m := within_ok.mp (hread ▸ Module.read_within text)
  refine ⟨?_, fun p hp c hc => tellsName_record hwithin hp hc file text⟩
  rw [callableRecords, discover_eq_filterMap, List.map_filterMap]

/-- Names of every kind: none, the sentinel in quotes, and some that differ from how they are written. -/
def sampleNames : List Char :=
  ("export default function () \x7b\x7d\nconst f = () => 1;\nclass C \x7b 'constructor'() \x7b\x7d " ++
    "[0]() \x7b\x7d 1n() \x7b\x7d '<anonymous>'() \x7b\x7d #p() \x7b\x7d get 0x10() \x7b\x7d " ++
    "\\u0061() \x7b\x7d \x7d").toList

theorem sentinel_iff_without_name_sampleNames :
    ∃ m, parse "a.js" sampleNames = .ok m ∧
      (callableRecords "a.js" sampleNames m).map (·.name) =
        ["<anonymous>", "f", "constructor", "<anonymous>", "<anonymous>", "<anonymous>", "p", "16",
          "a"] ∧
      ∀ p ∈ m.places, ∀ c, p.callable? = some c → TellsName p (c.record "a.js" sampleNames) := by
  have hsample : ∃ m, parse "a.js" sampleNames = .ok m ∧
      (callableRecords "a.js" sampleNames m).map (·.name) =
        ["<anonymous>", "f", "constructor", "<anonymous>", "<anonymous>", "<anonymous>", "p", "16",
          "a"] :=
    exists_ok_of_any (by decide +kernel)
  obtain ⟨m, hm, hnames⟩ := hsample
  exact ⟨m, hm, hnames, (sentinel_iff_without_name hm).2⟩

end Census
