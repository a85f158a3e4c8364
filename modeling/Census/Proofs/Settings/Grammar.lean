import Census.Proofs.Json.Soundness
import Census.Proofs.Settings.Choice
import Census.Proofs.Settings.Decoding
/-!
Which texts are settings, and which settings they are. A text is an object or a list of JSON; its fields
are `null` or values of one sort. No other text is read, and every text of the grammar is.
-/

namespace Census.Settings

open Census.Json (Blanks Cause ItemsLeft ItemsText Lexes MembersLeft MembersText Plain Token
  TokenKind Value ValueText blanks_of_eof exists_head expectEnd expectEnd_ok headToken
  head_of_readValue lexes_blanks lookup_eq_some_iff mark_spells marks readItems_spells readWritten
  readWritten_end readWritten_spells stops_blanks tail_shorter tokens)

variable {α β : Type} {n : Nat} {text t : List Char} {s : Settings} {v : Value} {ts : List Token}

/-! ## The grammar -/

/-- The parts to skip as a value. -/
def ignoreValue : Option (List String) → Value
  | none => .null
  | some parts => .array (parts.map .string)

def jobsValue : Option UInt64 → Value
  | none => .null
  | some jobs => .number (.natural jobs.toNat)

/-- An object with its members as they are written. -/
inductive ObjectText : List (String × Value) → List Char → Prop where
  | empty {t : List Char} : Blanks t → ObjectText [] ('\x7b' :: t ++ ['\x7d'])
  | members {ms : List (String × Value)} {t : List Char} : MembersText 1 ms t →
      ObjectText ms ('\x7b' :: t ++ ['\x7d'])

inductive ListText : List Value → List Char → Prop where
  | empty {t : List Char} : Blanks t → ListText [] ('[' :: t ++ [']'])
  | items {vs : List Value} {t : List Char} : ItemsText 1 vs t → ListText vs ('[' :: t ++ [']'])

/-- The texts of settings. A field that is missing is `null`. -/
inductive SettingsText (s : Settings) : List Char → Prop where
  | object {ms : List (String × Value)} {a t b : List Char} : Blanks a → ObjectText ms t → Blanks b →
      (ms.map Prod.fst).Nodup → (∀ key ∈ ms.map Prod.fst, key = "ignore" ∨ key = "jobs") →
      (ms.lookup "ignore").getD .null = ignoreValue s.ignore →
      (ms.lookup "jobs").getD .null = jobsValue s.jobs → SettingsText s (a ++ t ++ b)
  | list {vs : List Value} {a t b : List Char} : Blanks a → ListText vs t → Blanks b →
      vs.length ≤ 2 → vs[0]?.getD .null = ignoreValue s.ignore →
      vs[1]?.getD .null = jobsValue s.jobs → SettingsText s (a ++ t ++ b)

/-! ## Fields and their values -/

theorem mapM_string (parts : List String) :
    (parts.map Value.string).mapM partOfValue = .ok parts := by
  induction parts with
  | nil => rfl
  | cons part parts ih =>
    rw [List.map_cons, List.mapM_cons, ih]
    rfl

theorem eq_of_mapM_part {vs : List Value} {parts : List String}
    (h : vs.mapM partOfValue = .ok parts) : vs = parts.map .string := by
  induction vs generalizing parts with
  | nil =>
    obtain rfl : [] = parts := Except.ok.inj h
    rfl
  | cons v vs ih =>
    rw [List.mapM_cons] at h
    cases v with
    | string part =>
      cases hvs : vs.mapM partOfValue with
      | error c => simp [partOfValue, hvs] at h
      | ok more =>
        obtain rfl : part :: more = parts := by simpa [partOfValue, hvs] using h
        rw [ih hvs, List.map_cons]
    | _ => contradiction

theorem ignoreOfValue_eq_ok {o : Option (List String)} :
    optionalOfValue ignoreOfValue v = .ok o ↔ v = ignoreValue o := by
  constructor
  · intro h
    cases v with
    | null =>
      obtain rfl : none = o := Except.ok.inj h
      rfl
    | array vs =>
      cases hvs : vs.mapM partOfValue with
      | error c => simp [optionalOfValue, ignoreOfValue, hvs] at h
      | ok parts =>
        obtain rfl : some parts = o := by
          simpa [optionalOfValue, ignoreOfValue, hvs] using h
        rw [eq_of_mapM_part hvs]
        rfl
    | _ => contradiction
  · rintro rfl
    cases o with
    | none => rfl
    | some parts =>
      have hne : Value.array (parts.map .string) ≠ .null := nofun
      rw [ignoreValue, optionalOfValue_of_ne_null hne, ignoreOfValue, mapM_string]
      rfl

theorem jobsOfValue_jobsValue (o : Option UInt64) :
    optionalOfValue jobsOfValue (jobsValue o) = .ok o := by
  cases o with
  | none => rfl
  | some jobs => simp [jobsValue, optionalOfValue, jobsOfValue]

/-- A number that is read as one of 64 bits has been written as one. -/
theorem eq_jobsValue {o : Option UInt64} (h : optionalOfValue jobsOfValue v = .ok o)
    (hv : ∀ m, v = .number (.natural m) → m < UInt64.size) : v = jobsValue o := by
  cases v with
  | null =>
    obtain rfl : none = o := Except.ok.inj h
    rfl
  | number x =>
    cases x with
    | natural m =>
      obtain rfl : some (UInt64.ofNat m) = o := by
        simpa [optionalOfValue, jobsOfValue] using h
      rw [jobsValue, UInt64.toNat_ofNat_of_lt' (hv m rfl)]
    | _ => contradiction
  | _ => contradiction

theorem plain_ignoreValue (o : Option (List String)) : Plain (ignoreValue o) := by
  cases o with
  | none => exact .null
  | some parts =>
    refine .array fun v hv => ?_
    obtain ⟨part, -, rfl⟩ := List.mem_map.mp hv
    exact .string part

theorem plain_of_jobs {o : Option UInt64} (h : optionalOfValue jobsOfValue v = .ok o) : Plain v := by
  cases v with
  | null => exact .null
  | number x =>
    cases x with
    | natural m => exact .natural m
    | _ => contradiction
  | _ => contradiction

theorem plain_of_ignore {o : Option (List String)} (h : optionalOfValue ignoreOfValue v = .ok o) :
    Plain v := by
  rw [ignoreOfValue_eq_ok.mp h]
  exact plain_ignoreValue o

theorem fieldOf_none {ofValue : Value → Except Cause α} (o : Option Value) :
    fieldOf ofValue none o = optionalOfValue ofValue (o.getD .null) := by
  cases o <;> rfl

theorem takeFields_none {ms : List (String × Value)} : takeFields none none ms = .ok s ↔
    (ms.map Prod.fst).Nodup ∧ (∀ key ∈ ms.map Prod.fst, key = "ignore" ∨ key = "jobs") ∧
    optionalOfValue ignoreOfValue ((ms.lookup "ignore").getD .null) = .ok s.ignore ∧
    optionalOfValue jobsOfValue ((ms.lookup "jobs").getD .null) = .ok s.jobs := by
  rw [takeFields_eq_ok, ← fieldOf_none, ← fieldOf_none]
  constructor
  · rintro ⟨hnodup, -, -, hfold⟩
    exact ⟨hnodup, (addFields_eq_ok hnodup).mp hfold⟩
  · rintro ⟨hnodup, hall⟩
    exact ⟨hnodup, nofun, nofun, (addFields_eq_ok hnodup).mpr hall⟩

theorem ofArray_eq_ok {vs : List Value} : ofValue (.array vs) = .ok s ↔ vs.length ≤ 2 ∧
    optionalOfValue ignoreOfValue (vs[0]?.getD .null) = .ok s.ignore ∧
    optionalOfValue jobsOfValue (vs[1]?.getD .null) = .ok s.jobs := by
  obtain ⟨ignore, jobs⟩ := s
  have hmissing : optionalOfValue jobsOfValue .null = .ok none := rfl
  cases vs with
  | nil => simp [ofValue, empty, optionalOfValue]
  | cons i vs =>
    rw [ofValue_cons]
    cases hi : optionalOfValue ignoreOfValue i with
    | error c => simp [hi]
    | ok ignore' =>
      cases vs with
      | nil => simp [secondOfItems, hi, hmissing]
      | cons j more =>
        cases hj : optionalOfValue jobsOfValue j with
        | error c => simp [secondOfItems, hi, hj]
        | ok jobs' =>
          cases more with
          | nil => simp [secondOfItems, noItems, hi, hj]
          | cons k more => simp [secondOfItems, noItems, hi, hj]

/-! ## Reading gives texts of the grammar -/

theorem listText_of_left {vs : List Value} (h : ItemsLeft 1 true vs t) :
    ListText vs ('[' :: t ++ [']']) := by
  cases h with
  | none ht => exact .empty ht
  | some hlead hvs =>
    cases hlead
    exact .items hvs

theorem objectText_of_left {ms : List (String × Value)} (h : MembersLeft 1 true ms t) :
    ObjectText ms ('\x7b' :: t ++ ['\x7d']) := by
  cases h with
  | none ht => exact .empty ht
  | some hlead hms =>
    cases hlead
    exact .members hms

theorem ListText.natural_lt {vs : List Value} {m : Nat} (h : ListText vs t)
    (hm : .number (.natural m) ∈ vs) : m < UInt64.size := by
  cases h with
  | empty => contradiction
  | items hvs =>
    obtain ⟨u, hu⟩ := hvs.element _ hm
    exact hu.natural_lt

theorem ObjectText.natural_lt {ms : List (String × Value)} {key : String} {m : Nat}
    (h : ObjectText ms t) (hm : (key, .number (.natural m)) ∈ ms) : m < UInt64.size := by
  cases h with
  | empty => contradiction
  | members hms =>
    obtain ⟨u, hu⟩ := hms.element _ hm
    exact hu.natural_lt

theorem SettingsText.of_list {vs : List Value} {a b : List Char} (ha : Blanks a) (ht : ListText vs t)
    (hb : Blanks b) (h : ofValue (.array vs) = .ok s) : SettingsText s (a ++ t ++ b) := by
  obtain ⟨hlength, hignore, hjobs⟩ := ofArray_eq_ok.mp h
  refine .list ha ht hb hlength (ignoreOfValue_eq_ok.mp hignore) (eq_jobsValue hjobs ?_)
  intro m hm
  cases hget : vs[1]? with
  | none => simp [hget] at hm
  | some j =>
    obtain rfl : j = .number (.natural m) := by simpa [hget] using hm
    exact ht.natural_lt (List.mem_of_getElem? hget)

theorem SettingsText.of_object {ms : List (String × Value)} {a b : List Char} (ha : Blanks a)
    (ht : ObjectText ms t) (hb : Blanks b) (h : takeFields none none ms = .ok s) :
    SettingsText s (a ++ t ++ b) := by
  obtain ⟨hnodup, hkeys, hignore, hjobs⟩ := takeFields_none.mp h
  refine .object ha ht hb hnodup hkeys (ignoreOfValue_eq_ok.mp hignore) (eq_jobsValue hjobs ?_)
  intro m hm
  cases hlookup : ms.lookup "jobs" with
  | none => simp [hlookup] at hm
  | some j =>
    obtain rfl : j = .number (.natural m) := by simpa [hlookup] using hm
    exact ht.natural_lt ((lookup_eq_some_iff hnodup).mp hlookup)

/-- The items of a list of settings are of the sorts that the grammar knows. -/
theorem plain_of_array {vs : List Value} (h : ofValue (.array vs) = .ok s) : ∀ v ∈ vs, Plain v := by
  obtain ⟨hlength, hignore, hjobs⟩ := ofArray_eq_ok.mp h
  match vs, hlength with
  | [], _ => exact nofun
  | [i], _ =>
    intro v hv
    obtain rfl := List.mem_singleton.mp hv
    exact plain_of_ignore hignore
  | [i, j], _ =>
    intro v hv
    rcases List.mem_cons.mp hv with rfl | hv
    · exact plain_of_ignore hignore
    · obtain rfl := List.mem_singleton.mp hv
      exact plain_of_jobs hjobs

theorem plain_of_fields {ms : List (String × Value)} (h : takeFields none none ms = .ok s) :
    ∀ m ∈ ms, Plain m.2 := by
  obtain ⟨hnodup, hkeys, hignore, hjobs⟩ := takeFields_none.mp h
  intro ⟨key, v⟩ hm
  have hlookup := (lookup_eq_some_iff hnodup).mpr hm
  rcases hkeys key (List.mem_map_of_mem hm) with rfl | rfl
  · rw [hlookup] at hignore
    exact plain_of_ignore hignore
  · rw [hlookup] at hjobs
    exact plain_of_jobs hjobs

theorem text_of_ofTokens (h : ofTokens (tokens text) = .ok s) : SettingsText s text := by
  have hbracket : ('[', .leftBracket) ∈ marks := by decide
  have hbrace : ('\x7b', .leftBrace) ∈ marks := by decide
  rw [ofTokens_eq] at h
  cases hfront : readFront (tokens text) with
  | error e => simp [hfront] at h
  | ok r =>
    obtain ⟨s', after⟩ := r
    cases hend : expectEnd after with
    | error e => simp [hfront, hend] at h
    | ok u =>
      obtain rfl : s' = s := by simpa [hfront, hend] using h
      have heof := expectEnd_ok hend
      unfold readFront at hfront
      split at hfront
      · rename_i hk
        obtain ⟨a, inner, ha, rfl, htail⟩ := mark_spells hbracket hk
        rw [htail] at hfront
        obtain ⟨vs, hvs, htake⟩ :=
          (readPair_agrees _ 0 (tokens inner) (Nat.le_refl _)).read_ok hfront
        obtain ⟨t, rest, ht, rfl, rfl⟩ := readItems_spells hvs (plain_of_array htake)
        have hlist := SettingsText.of_list ha (listText_of_left ht) (blanks_of_eof heof) htake
        simpa using hlist
      · rename_i hk
        have hlt : (tokens text).tail.length < (tokens text).length :=
          tail_shorter (by rw [hk]; nofun)
        obtain ⟨a, inner, ha, rfl, htail⟩ := mark_spells hbrace hk
        rw [htail] at hfront hlt
        obtain ⟨ms, hms, htake⟩ :=
          (readFields_agrees _ _ 0 true none none (tokens inner) (Nat.lt_succ_of_lt hlt)
            (Nat.le_refl _)).read_ok hfront
        obtain ⟨t, rest, ht, rfl, rfl⟩ := readWritten_spells hms (plain_of_fields htake)
        have hobject := SettingsText.of_object ha (objectText_of_left ht) (blanks_of_eof heof) htake
        simpa using hobject
      · contradiction

/-! ## Texts of the grammar are read -/

theorem ListText.value {vs : List Value} (h : ListText vs t) : ValueText 2 (.array vs) t := by
  cases h with
  | empty ht => exact .emptyArray ht
  | items hvs => exact .array hvs

/-- The tokens of an object are a brace and those from which its members are read. -/
theorem ObjectText.reads {ms : List (String × Value)} (h : ObjectText ms t) :
    ∃ ks, Lexes t (.leftBrace :: ks) ∧ ∀ fuel ts more, 2 * ks.length + 1 ≤ fuel →
      ts.map Token.kind = ks ++ more →
      ∃ after, readWritten fuel 1 true ts = .ok (ms, after) ∧ after.map Token.kind = more := by
  cases h with
  | empty hb =>
    refine ⟨[.rightBrace], (lexes_blanks hb).enclosed (by decide) (by decide), ?_⟩
    intro fuel ts more hf hts
    obtain ⟨fuel, rfl⟩ := Nat.exists_eq_add_of_le' (show 1 ≤ fuel by omega)
    obtain ⟨_, rest, rfl, hclose, hrest⟩ := exists_head hts
    exact ⟨rest, readWritten_end hclose true, hrest⟩
  | members hms =>
    obtain ⟨ks, hlex, hread⟩ := hms.reads
    refine ⟨ks ++ [.rightBrace], hlex.enclosed (by decide) (by decide), ?_⟩
    intro fuel ts more hf hts
    rw [List.length_append] at hf
    rw [List.append_assoc] at hts
    exact (hread fuel ts more (by omega) hts).2

theorem ofTokens_of_front {t : Token} (h : readFront ts = .ok (s, [t])) (ht : t.kind = .eof) :
    ofTokens ts = .ok s := by
  simp [ofTokens_eq, h, expectEnd, headToken, ht]

theorem lexes_spaced {a b : List Char} {ks : List TokenKind} (ha : Blanks a) (h : Lexes t ks)
    (hb : Blanks b) : Lexes (a ++ t ++ b) ks := by
  have hlex := (h.append (lexes_blanks hb) (stops_blanks hb)).blanks ha
  simpa using hlex

theorem ofTokens_of_text (h : SettingsText s text) : ofTokens (tokens text) = .ok s := by
  cases h with
  | @object ms a t b ha ht hb hnodup hkeys hignore hjobs =>
    obtain ⟨ks, hlex, hread⟩ := ht.reads
    obtain ⟨_, inner, htokens, hk, hinner⟩ := exists_head (lexes_spaced ha hlex hb).tokens
    have hlength : inner.length = ks.length + 1 := by simpa using congrArg List.length hinner
    obtain ⟨after, hms, hafter⟩ := hread (2 * inner.length + 3) inner [.eof] (by omega) hinner
    obtain ⟨_, _, rfl, heof, hnil⟩ := exists_head hafter
    obtain rfl := List.map_eq_nil_iff.mp hnil
    have htake : takeFields none none ms = .ok s := by
      refine takeFields_none.mpr ⟨hnodup, hkeys, ignoreOfValue_eq_ok.mpr hignore, ?_⟩
      rw [hjobs]
      exact jobsOfValue_jobsValue s.jobs
    have hlt : inner.length < (tokens (a ++ t ++ b)).length + 1 := by
      rw [htokens, List.length_cons]
      omega
    have hfields := (readFields_agrees _ _ 0 true none none inner hlt (Nat.le_refl _)).straight_ok
      hms htake
    refine ofTokens_of_front ?_ heof
    rw [readFront, hk, htokens]
    rw [htokens] at hfields
    exact hfields
  | @list vs a t b ha ht hb hlength hignore hjobs =>
    obtain ⟨ks, hlex, hread⟩ := ht.value.reads
    have htokens := (lexes_spaced ha hlex hb).tokens
    have hcount : (tokens (a ++ t ++ b)).length = ks.length + 1 := by
      simpa using congrArg List.length htokens
    obtain ⟨after, hvalue, hafter⟩ :=
      hread (2 * (tokens (a ++ t ++ b)).length + 1 + 1) _ [.eof] (by omega) htokens
    obtain ⟨_, _, rfl, heof, hnil⟩ := exists_head hafter
    obtain rfl := List.map_eq_nil_iff.mp hnil
    have htake : ofValue (.array vs) = .ok s := by
      refine ofArray_eq_ok.mpr ⟨hlength, ignoreOfValue_eq_ok.mpr hignore, ?_⟩
      rw [hjobs]
      exact jobsOfValue_jobsValue s.jobs
    have hbracket : (headToken (tokens (a ++ t ++ b))).kind ≠ .leftBrace := by
      rw [head_of_readValue hvalue]
      nofun
    have hfront := (readFront_agrees _ 0 (tokens (a ++ t ++ b)) (Nat.le_refl _)
      (fun hk => absurd hk hbracket)).straight_ok hvalue htake
    exact ofTokens_of_front hfront heof

/-! ## Main results -/

/-- The reader of settings reads the texts of the grammar and no others. -/
theorem read_eq_ok : read text = .ok s ↔ SettingsText s text := by
  constructor
  · intro h
    unfold read at h
    split at h
    · rename_i s' hs
      obtain rfl := Except.ok.inj h
      exact text_of_ofTokens hs
    · contradiction
  · intro h
    rw [read, ofTokens_of_text h]

/-- A text gives settings that can be filled in exactly if it is one of the grammar and no part to skip is
empty. What is filled in is what the text says, and for what it does not say the usual values. -/
theorem resolves_iff (text : List Char) (r : Resolved) :
    (∃ s, read text = .ok s ∧ s.resolve = .ok r) ↔
      ∃ s, SettingsText s text ∧ (∀ parts, s.ignore = some parts → "" ∉ parts) ∧
        r = ⟨s.ignore.getD ["node_modules", "tests"], s.jobs.getD 1, none⟩ := by
  constructor
  · rintro ⟨s, hread, hresolve⟩
    have hparts : ∀ parts, s.ignore = some parts → "" ∉ parts := by
      intro parts hignore hempty
      rw [resolve, validate_eq_error hignore hempty] at hresolve
      contradiction
    rw [resolve_eq_ok hparts] at hresolve
    exact ⟨s, read_eq_ok.mp hread, hparts, (Except.ok.inj hresolve).symm⟩
  · rintro ⟨s, htext, hparts, rfl⟩
    exact ⟨s, read_eq_ok.mpr htext, resolve_eq_ok hparts⟩

end Census.Settings
