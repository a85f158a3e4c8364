import Census.Proofs.Json.Scanning
import Census.Proofs.Json.Written
/-!
The reader accepts no other texts than those of the grammar: where it has read a value that the grammar
knows, a text of this value stands at the front, and the tokens that are left are those of the text behind
it.
-/

namespace Census.Json

variable {n fuel : Nat} {isFirst : Bool} {cs t u : List Char} {v : Value} {vs : List Value}
  {ms : List (String × Value)} {after ts : List Token}

/-- Values of words, natural numbers and strings, and lists of them. -/
inductive Plain : Value → Prop where
  | null : Plain .null
  | boolean (b : Bool) : Plain (.boolean b)
  | natural (m : Nat) : Plain (.number (.natural m))
  | string (s : String) : Plain (.string s)
  | array {vs : List Value} : (∀ v ∈ vs, Plain v) → Plain (.array vs)

/-! ## Texts that go on -/

theorem Blanks.append {a b : List Char} (ha : Blanks a) (hb : Blanks b) : Blanks (a ++ b) := by
  intro c hc
  rcases List.mem_append.mp hc with hc | hc
  · exact ha c hc
  · exact hb c hc

theorem ElementText.append_blanks {b : List Char} (h : ElementText n v t) (hb : Blanks b) :
    ElementText n v (t ++ b) := by
  cases h with
  | @spaced _ _ a w c ha hv hc =>
    rw [List.append_assoc]
    exact .spaced ha hv (hc.append hb)

theorem ValueText.element {a : List Char} (ha : Blanks a) (h : ValueText n v t) :
    ElementText n v (a ++ t) := by
  have helement := ElementText.spaced ha h blanks_nil
  rwa [List.append_nil] at helement

theorem MemberText.append_blanks {m : String × Value} {b : List Char} (h : MemberText n m t)
    (hb : Blanks b) : MemberText n m (t ++ b) := by
  cases h with
  | @colon _ key v a w c w' ha hkey hc he =>
    have hmember := MemberText.colon ha hkey hc (he.append_blanks hb)
    simpa using hmember

/-- What stands before the next element of a list or the next member of an object. -/
inductive Lead : Bool → List Char → Prop where
  | first : Lead true []
  | comma {a : List Char} : Blanks a → Lead false (a ++ [','])

/-- The items of a list up to its end, with what stands before them. -/
inductive ItemsLeft (n : Nat) (isFirst : Bool) : List Value → List Char → Prop where
  | none {t : List Char} : Blanks t → ItemsLeft n isFirst [] t
  | some {vs : List Value} {a t : List Char} : Lead isFirst a → ItemsText n vs t →
      ItemsLeft n isFirst vs (a ++ t)

theorem ItemsLeft.cons (h : ElementText n v t) (hs : ItemsLeft n false vs u) :
    ItemsText n (v :: vs) (t ++ u) := by
  cases hs with
  | none hu => exact .last (h.append_blanks hu)
  | some hlead hvs =>
    cases hlead with
    | @comma a ha =>
      have hitems := ItemsText.more (h.append_blanks ha) hvs
      simpa using hitems

/-- The members of an object up to its end, with what stands before them. -/
inductive MembersLeft (n : Nat) (isFirst : Bool) : List (String × Value) → List Char → Prop where
  | none {t : List Char} : Blanks t → MembersLeft n isFirst [] t
  | some {ms : List (String × Value)} {a t : List Char} : Lead isFirst a → MembersText n ms t →
      MembersLeft n isFirst ms (a ++ t)

theorem MembersLeft.cons {m : String × Value} (h : MemberText n m t) (hs : MembersLeft n false ms u) :
    MembersText n (m :: ms) (t ++ u) := by
  cases hs with
  | none hu => exact .last (h.append_blanks hu)
  | some hlead hms =>
    cases hlead with
    | @comma a ha =>
      have hmembers := MembersText.more (h.append_blanks ha) hms
      simpa using hmembers

theorem ItemsText.element {vs : List Value} {t : List Char} (h : ItemsText n vs t) :
    ∀ v ∈ vs, ∃ u, ElementText n v u := by
  induction vs generalizing t with
  | nil =>
    intro v hv
    cases hv
  | cons w ws ih =>
    intro v hv
    cases h with
    | last he =>
      obtain rfl := List.mem_singleton.mp hv
      exact ⟨_, he⟩
    | more he hs =>
      rcases List.mem_cons.mp hv with rfl | hv
      · exact ⟨_, he⟩
      · exact ih hs v hv

theorem MemberText.element {m : String × Value} (h : MemberText n m t) :
    ∃ u, ElementText n m.2 u := by
  cases h with
  | colon _ _ _ he => exact ⟨_, he⟩

theorem MembersText.element {ms : List (String × Value)} {t : List Char} (h : MembersText n ms t) :
    ∀ m ∈ ms, ∃ u, ElementText n m.2 u := by
  induction ms generalizing t with
  | nil =>
    intro m hmem
    cases hmem
  | cons w ws ih =>
    intro m hmem
    cases h with
    | last hm =>
      obtain rfl := List.mem_singleton.mp hmem
      exact hm.element
    | more hm hs =>
      rcases List.mem_cons.mp hmem with rfl | hmem
      · exact hm.element
      · exact ih hs m hmem

theorem ElementText.natural_lt {m : Nat} (h : ElementText n (.number (.natural m)) t) :
    m < UInt64.size := by
  cases h with
  | spaced _ hv _ =>
    cases hv with
    | natural hm => exact hm

/-! ## Tokens and their texts -/

theorem TokenText.of_mark {c : Char} {k : TokenKind} (h : TokenText k t) (hc : (c, k) ∈ marks) :
    t = [c] := by
  cases h with
  | @mark d _ hd =>
    have hunique : ∀ m ∈ marks, ∀ m' ∈ marks, m.2 = m'.2 → m.1 = m'.1 := by decide
    have hsame : d = c := hunique _ hd _ hc rfl
    rw [hsame]
  | _ => simp [marks] at hc

theorem mark_spells {c : Char} {k : TokenKind} (hc : (c, k) ∈ marks)
    (hk : (headToken (tokens cs)).kind = k) :
    ∃ a rest, Blanks a ∧ cs = a ++ c :: rest ∧ (tokens cs).tail = tokens rest := by
  have hplain : ∀ m ∈ marks, m.2.isLast = false ∧ m.2.isRounded = false := by decide
  obtain ⟨a, u, rest, ha, hu, rfl, htail⟩ := tokens_spells hk (hplain _ hc).1 (hplain _ hc).2
  obtain rfl := hu.of_mark hc
  exact ⟨a, rest, ha, by simp, htail⟩

theorem continues_spells {next : List Token} (h : Continues (tokens cs) isFirst next) :
    ∃ a rest, Lead isFirst a ∧ cs = a ++ rest ∧ next = tokens rest := by
  cases h with
  | first => exact ⟨[], cs, .first, rfl, rfl⟩
  | comma hk =>
    have hcomma : (',', .comma) ∈ marks := by decide
    obtain ⟨a, rest, ha, rfl, htail⟩ := mark_spells hcomma hk
    exact ⟨a ++ [','], rest, .comma ha, by simp, htail⟩

/-- A token that is a whole value. -/
theorem scalar_spells (hplain : Plain v) (harray : firstKind v ≠ .leftBracket)
    (hk : (headToken (tokens cs)).kind = firstKind v) :
    ∃ t rest, ElementText n v t ∧ cs = t ++ rest ∧ (tokens cs).tail = tokens rest := by
  cases hplain with
  | null =>
    obtain ⟨a, u, rest, ha, hu, rfl, htail⟩ := tokens_spells hk rfl rfl
    cases hu with
    | mark hu => simp [marks, firstKind] at hu
    | null => exact ⟨_, rest, ValueText.null.element ha, rfl, htail⟩
  | boolean b =>
    obtain ⟨a, u, rest, ha, hu, rfl, htail⟩ := tokens_spells hk rfl rfl
    cases hu with
    | mark hu => simp [marks, firstKind] at hu
    | boolean => exact ⟨_, rest, ValueText.boolean.element ha, rfl, htail⟩
  | natural m =>
    obtain ⟨a, u, rest, ha, hu, rfl, htail⟩ := tokens_spells hk rfl rfl
    cases hu with
    | mark hu => simp [marks, firstKind] at hu
    | natural hm => exact ⟨_, rest, (ValueText.natural hm).element ha, rfl, htail⟩
  | string s =>
    obtain ⟨a, u, rest, ha, hu, rfl, htail⟩ := tokens_spells hk rfl rfl
    cases hu with
    | mark hu => simp [marks, firstKind] at hu
    | string hs => exact ⟨_, rest, (ValueText.string hs).element ha, rfl, htail⟩
  | array => exact absurd rfl harray

/-! ## Values, lists and members -/

/-- A list between its brackets. -/
theorem ItemsLeft.array {a : List Char} (ha : Blanks a) (h : ItemsLeft n true vs t) :
    ElementText (n + 1) (.array vs) (a ++ '[' :: t ++ [']']) := by
  cases h with
  | none ht =>
    rw [List.append_assoc]
    exact (ValueText.emptyArray ht).element ha
  | some hlead hvs =>
    cases hlead
    rw [List.append_assoc]
    exact (ValueText.array hvs).element ha

theorem read_spells (fuel : Nat) :
    (∀ n cs v after, readValue fuel n (tokens cs) = .ok (v, after) → Plain v →
      ∃ t rest, ElementText n v t ∧ cs = t ++ rest ∧ after = tokens rest) ∧
    (∀ n isFirst cs vs after, readItems fuel n isFirst (tokens cs) = .ok (vs, after) →
      (∀ v ∈ vs, Plain v) →
      ∃ t rest, ItemsLeft n isFirst vs t ∧ cs = t ++ ']' :: rest ∧ after = tokens rest) := by
  induction fuel with
  | zero => exact ⟨nofun, nofun⟩
  | succ fuel ih =>
    obtain ⟨ihValue, ihItems⟩ := ih
    have hopen : ('[', .leftBracket) ∈ marks := by decide
    have hclose : (']', .rightBracket) ∈ marks := by decide
    constructor
    · intro n cs v after h hplain
      cases readValue_front h with
      | scalar harray _ hk => exact scalar_spells hplain harray hk
      | @array n vs _ hk hitems =>
        obtain ⟨a, inner, ha, rfl, htail⟩ := mark_spells hopen hk
        cases hplain with
        | array hall =>
          rw [htail] at hitems
          obtain ⟨t, rest, ht, rfl, rfl⟩ := ihItems n true inner vs after hitems hall
          exact ⟨_, rest, ht.array ha, by simp, rfl⟩
      | object => cases hplain
    · intro n isFirst cs vs after h hplain
      rcases readItems_cases h with ⟨hnext, rfl, rfl⟩ | ⟨next, v, behind, vs, hnext, hv, hvs, rfl⟩
      · obtain ⟨a, rest, ha, rfl, htail⟩ := mark_spells hclose (nextElement_none hnext)
        exact ⟨a, rest, .none ha, rfl, htail⟩
      · rw [List.forall_mem_cons] at hplain
        obtain ⟨a, inner, ha, rfl, rfl⟩ := continues_spells (nextElement_some hnext)
        obtain ⟨t, more, ht, rfl, rfl⟩ := ihValue n inner v behind hv hplain.1
        obtain ⟨u, rest, hu, rfl, rfl⟩ := ihItems n false more vs after hvs hplain.2
        exact ⟨_, rest, .some ha (hu.cons ht), by simp, rfl⟩

theorem readValue_spells (h : readValue fuel n (tokens cs) = .ok (v, after)) (hv : Plain v) :
    ∃ t rest, ElementText n v t ∧ cs = t ++ rest ∧ after = tokens rest :=
  (read_spells fuel).1 n cs v after h hv

theorem readItems_spells (h : readItems fuel n isFirst (tokens cs) = .ok (vs, after))
    (hvs : ∀ v ∈ vs, Plain v) :
    ∃ t rest, ItemsLeft n isFirst vs t ∧ cs = t ++ ']' :: rest ∧ after = tokens rest :=
  (read_spells fuel).2 n isFirst cs vs after h hvs

theorem readWritten_spells (h : readWritten fuel n isFirst (tokens cs) = .ok (ms, after))
    (hms : ∀ m ∈ ms, Plain m.2) :
    ∃ t rest, MembersLeft n isFirst ms t ∧ cs = t ++ '\x7d' :: rest ∧ after = tokens rest := by
  have hclose : ('\x7d', .rightBrace) ∈ marks := by decide
  have hcolon : (':', .colon) ∈ marks := by decide
  induction fuel generalizing isFirst cs ms with
  | zero => contradiction
  | succ fuel ih =>
    rcases readWritten_cases h with
      ⟨hnext, rfl, rfl⟩ | ⟨key, next, inner, v, behind, more, hnext, hpoint, hv, hmore, rfl⟩
    · obtain ⟨a, rest, ha, rfl, htail⟩ := mark_spells hclose (nextKey_none hnext)
      exact ⟨a, rest, .none ha, rfl, htail⟩
    · rw [List.forall_mem_cons] at hms
      obtain ⟨us, hcontinues, hk, rfl⟩ := nextKey_some hnext
      obtain ⟨lead, cs, hlead, rfl, rfl⟩ := continues_spells hcontinues
      -- the key, the colon, the value and what is left, each in the text behind the one before
      obtain ⟨a, u, cs, ha, hu, rfl, htail⟩ := tokens_spells hk rfl rfl
      rw [htail] at hpoint
      obtain ⟨hk, rfl⟩ := expectColon_ok hpoint
      obtain ⟨b, cs, hb, rfl, htail⟩ := mark_spells hcolon hk
      rw [htail] at hv
      obtain ⟨w, cs, hw, rfl, rfl⟩ := readValue_spells hv hms.1
      obtain ⟨t, rest, ht, rfl, rfl⟩ := ih hmore hms.2
      cases hu with
      | mark hu => simp [marks] at hu
      | string hkey =>
        exact ⟨_, rest, .some hlead (ht.cons (.colon ha hkey hb hw)), by simp, rfl⟩

end Census.Json
