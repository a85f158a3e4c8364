import Census.Proofs.Except
import Census.Proofs.Json.Grammar
import Mathlib.Data.List.Induction
/-!
The members of an object as they are written. The reader keeps only the last member of every key, and
keeps the members in the order of their keys; here they are read with none left out, and what is kept
comes of them.
-/

namespace Census.Json

variable {fuel n : Nat} {isFirst : Bool} {key : String} {v : Value}
  {kept written : List (String × Value)} {ts : List Token}

/-- The members of an object up to the closing brace, every one in its place. -/
def readWritten : Nat → Nat → Bool → List Token →
    Except Fault (List (String × Value) × List Token)
  | 0, _, _, ts => .error (headToken ts).noValue
  | fuel + 1, levels, isFirst, ts => do
    match ← nextKey isFirst ts with
    | none => return ([], ts.tail)
    | some (key, ts) =>
      let ts ← expectColon ts
      let (value, ts) ← readValue fuel levels ts
      let (members, ts) ← readWritten fuel levels false ts
      return ((key, value) :: members, ts)

/-- The reader takes the members that are written one after another into those it has. -/
theorem readMembers_eq_written (fuel n : Nat) (isFirst : Bool) (kept : List (String × Value))
    (ts : List Token) :
    readMembers fuel n isFirst kept ts = (readWritten fuel n isFirst ts).map fun r =>
      (r.1.foldl (fun kept m => insertMember m.1 m.2 kept) kept, r.2) := by
  induction fuel generalizing isFirst kept ts with
  | zero => rfl
  | succ fuel ih =>
    rw [readMembers, readWritten]
    cases nextKey isFirst ts with
    | error fault => rfl
    | ok next =>
      cases next with
      | none => rfl
      | some next =>
        obtain ⟨key, ts⟩ := next
        simp only [ok_bind]
        cases expectColon ts with
        | error fault => rfl
        | ok ts =>
          simp only [ok_bind]
          cases readValue fuel n ts with
          | error fault => rfl
          | ok r =>
            simp only [ok_bind, ih]
            cases readWritten fuel n false r.2 <;> rfl

/-! ## Every step passes over tokens -/

theorem tail_shorter (h : (headToken ts).kind ≠ .eof) : ts.tail.length < ts.length := by
  cases ts with
  | nil => exact absurd rfl h
  | cons t ts => exact Nat.lt_succ_self _

theorem nextElement_none (h : nextElement isFirst ts = .ok none) :
    (headToken ts).kind = .rightBracket := by
  unfold nextElement at h
  dsimp only at h
  split at h
  · assumption
  · contradiction
  · split at h
    · simp at h
    · split at h <;> simp at h
  · split at h <;> simp at h

/-- Where the next element of a list or the next member of an object starts: here, or behind a comma. -/
inductive Continues (ts : List Token) : Bool → List Token → Prop where
  | first : Continues ts true ts
  | comma : (headToken ts).kind = .comma → Continues ts false ts.tail

theorem Continues.length_le {next : List Token} (h : Continues ts isFirst next) :
    next.length ≤ ts.length := by
  cases h with
  | first => exact Nat.le_refl _
  | comma hk => exact Nat.le_of_lt (tail_shorter (by rw [hk]; nofun))

theorem nextElement_some {next : List Token} (h : nextElement isFirst ts = .ok (some next)) :
    Continues ts isFirst next := by
  unfold nextElement at h
  dsimp only at h
  split at h
  · simp at h
  · contradiction
  · rename_i hk
    cases isFirst with
    | true =>
      obtain rfl : ts = next := by simpa using h
      exact .first
    | false =>
      rw [if_neg Bool.false_ne_true] at h
      split at h
      · contradiction
      · contradiction
      · obtain rfl : ts.tail = next := by simpa using h
        exact .comma hk
  · cases isFirst with
    | true =>
      obtain rfl : ts = next := by simpa using h
      exact .first
    | false => contradiction

theorem readKey_ok {after : List Token} (h : readKey ts = .ok (key, after)) :
    (headToken ts).kind = .string key ∧ after = ts.tail := by
  unfold readKey at h
  dsimp only at h
  split at h
  · rename_i hk
    obtain ⟨rfl, rfl⟩ : _ = key ∧ ts.tail = after := by simpa using h
    exact ⟨hk, rfl⟩
  · contradiction
  · contradiction

theorem nextKey_none (h : nextKey isFirst ts = .ok none) : (headToken ts).kind = .rightBrace := by
  have hkey {us : List Token} : some <$> readKey us ≠ .ok none := by
    cases readKey us <;> nofun
  unfold nextKey at h
  dsimp only at h
  split at h
  · assumption
  · contradiction
  · split at h
    · contradiction
    · split at h
      · contradiction
      · contradiction
      · exact absurd h hkey
  · split at h
    · exact absurd h hkey
    · contradiction

theorem nextKey_some {after : List Token} (h : nextKey isFirst ts = .ok (some (key, after))) :
    ∃ us, Continues ts isFirst us ∧ (headToken us).kind = .string key ∧ after = us.tail := by
  have hkey {us : List Token} (hus : some <$> readKey us = .ok (some (key, after))) :
      (headToken us).kind = .string key ∧ after = us.tail := by
    cases hread : readKey us with
    | error fault => simp [hread] at hus
    | ok r =>
      obtain rfl : r = (key, after) := by simpa [hread] using hus
      exact readKey_ok hread
  unfold nextKey at h
  dsimp only at h
  split at h
  · simp at h
  · contradiction
  · rename_i hk
    cases isFirst with
    | true => contradiction
    | false =>
      rw [if_neg Bool.false_ne_true] at h
      split at h
      · contradiction
      · contradiction
      · exact ⟨ts.tail, .comma hk, hkey h⟩
  · cases isFirst with
    | true => exact ⟨ts, .first, hkey h⟩
    | false => contradiction

theorem nextKey_shorter {after : List Token} (h : nextKey isFirst ts = .ok (some (key, after))) :
    after.length < ts.length := by
  obtain ⟨us, hcontinues, hk, rfl⟩ := nextKey_some h
  exact Nat.lt_of_lt_of_le (tail_shorter (by rw [hk]; nofun)) hcontinues.length_le

theorem expectColon_ok {after : List Token} (h : expectColon ts = .ok after) :
    (headToken ts).kind = .colon ∧ after = ts.tail := by
  unfold expectColon at h
  dsimp only at h
  split at h
  · rename_i hk
    exact ⟨hk, (Except.ok.inj h).symm⟩
  · contradiction
  · contradiction

theorem expectColon_shorter {after : List Token} (h : expectColon ts = .ok after) :
    after.length < ts.length := by
  obtain ⟨hk, rfl⟩ := expectColon_ok h
  exact tail_shorter (by rw [hk]; nofun)

theorem expectEnd_ok (h : expectEnd ts = .ok ()) : (headToken ts).kind = .eof := by
  unfold expectEnd at h
  dsimp only at h
  split at h
  · assumption
  · contradiction

theorem readItems_cases {vs : List Value} {after : List Token}
    (h : readItems (fuel + 1) n isFirst ts = .ok (vs, after)) :
    (nextElement isFirst ts = .ok none ∧ vs = [] ∧ after = ts.tail) ∨
      ∃ next v behind vs', nextElement isFirst ts = .ok (some next) ∧
        readValue fuel n next = .ok (v, behind) ∧ readItems fuel n false behind = .ok (vs', after) ∧
        vs = v :: vs' := by
  rw [readItems] at h
  cases hnext : nextElement isFirst ts with
  | error fault => simp [hnext] at h
  | ok next =>
    cases next with
    | none =>
      obtain ⟨rfl, rfl⟩ : [] = vs ∧ ts.tail = after := by simpa [hnext] using h
      exact .inl ⟨rfl, rfl, rfl⟩
    | some next =>
      simp only [hnext, ok_bind] at h
      cases hv : readValue fuel n next with
      | error fault => simp [hv] at h
      | ok r =>
        obtain ⟨v, behind⟩ := r
        simp only [hv, ok_bind] at h
        cases hvs : readItems fuel n false behind with
        | error fault => simp [hvs] at h
        | ok r =>
          obtain ⟨vs', last⟩ := r
          obtain ⟨rfl, rfl⟩ : v :: vs' = vs ∧ last = after := by simpa [hvs] using h
          exact .inr ⟨next, v, behind, vs', rfl, hv, hvs, rfl⟩

theorem readWritten_cases {after : List Token}
    (h : readWritten (fuel + 1) n isFirst ts = .ok (written, after)) :
    (nextKey isFirst ts = .ok none ∧ written = [] ∧ after = ts.tail) ∨
      ∃ key next inner v behind written', nextKey isFirst ts = .ok (some (key, next)) ∧
        expectColon next = .ok inner ∧ readValue fuel n inner = .ok (v, behind) ∧
        readWritten fuel n false behind = .ok (written', after) ∧ written = (key, v) :: written' := by
  rw [readWritten] at h
  cases hnext : nextKey isFirst ts with
  | error fault => simp [hnext] at h
  | ok next =>
    cases next with
    | none =>
      obtain ⟨rfl, rfl⟩ : [] = written ∧ ts.tail = after := by simpa [hnext] using h
      exact .inl ⟨rfl, rfl, rfl⟩
    | some next =>
      obtain ⟨key, next⟩ := next
      simp only [hnext, ok_bind] at h
      cases hcolon : expectColon next with
      | error fault => simp [hcolon] at h
      | ok inner =>
        simp only [hcolon, ok_bind] at h
        cases hv : readValue fuel n inner with
        | error fault => simp [hv] at h
        | ok r =>
          obtain ⟨v, behind⟩ := r
          simp only [hv, ok_bind] at h
          cases hmore : readWritten fuel n false behind with
          | error fault => simp [hmore] at h
          | ok r =>
            obtain ⟨more, last⟩ := r
            obtain ⟨rfl, rfl⟩ : (key, v) :: more = written ∧ last = after := by
              simpa [hmore] using h
            exact .inr ⟨key, next, inner, v, behind, more, rfl, hcolon, hv, hmore, rfl⟩

/-- The token that a value starts with. -/
def firstKind : Value → TokenKind
  | .null => .null
  | .boolean b => .boolean b
  | .number x => .number x
  | .string s => .string s
  | .array _ => .leftBracket
  | .object _ => .leftBrace

/-- How a value has been read from the front of some tokens, within a bound on the steps behind its first
token. -/
inductive ReadFront (fuel : Nat) (ts : List Token) : Nat → Value → List Token → Prop where
  | scalar {n : Nat} {v : Value} : firstKind v ≠ .leftBracket → firstKind v ≠ .leftBrace →
      (headToken ts).kind = firstKind v → ReadFront fuel ts n v ts.tail
  | array {n : Nat} {vs : List Value} {after : List Token} : (headToken ts).kind = .leftBracket →
      readItems fuel n true ts.tail = .ok (vs, after) → ReadFront fuel ts (n + 1) (.array vs) after
  | object {n : Nat} {ms : List (String × Value)} {after : List Token} :
      (headToken ts).kind = .leftBrace → readWritten fuel n true ts.tail = .ok (ms, after) →
      ReadFront fuel ts (n + 1) (.object (keptMembers ms)) after

theorem readValue_front {after : List Token} (h : readValue (fuel + 1) n ts = .ok (v, after)) :
    ReadFront fuel ts n v after := by
  unfold readValue at h
  dsimp only at h
  cases hk : (headToken ts).kind <;> rw [hk] at h <;> dsimp only at h
  case null | boolean | number | string =>
    obtain ⟨rfl, rfl⟩ := Prod.mk.inj (Except.ok.inj h)
    exact .scalar nofun nofun hk
  case leftBracket =>
    cases n with
    | zero => contradiction
    | succ n =>
      cases hitems : readItems fuel n true ts.tail with
      | error fault => simp [hitems] at h
      | ok r =>
        obtain ⟨rfl, rfl⟩ : Value.array r.1 = v ∧ r.2 = after := by simpa [hitems] using h
        exact .array hk hitems
  case leftBrace =>
    cases n with
    | zero => contradiction
    | succ n =>
      simp only [readMembers_eq_written] at h
      cases hmembers : readWritten fuel n true ts.tail with
      | error fault => simp [hmembers] at h
      | ok r =>
        obtain ⟨rfl, rfl⟩ : Value.object (keptMembers r.1) = v ∧ r.2 = after := by
          simpa [hmembers, keptMembers] using h
        exact .object hk hmembers
  all_goals contradiction

theorem head_of_readValue {after : List Token} (h : readValue fuel n ts = .ok (v, after)) :
    (headToken ts).kind = firstKind v := by
  cases fuel with
  | zero => simp [readValue] at h
  | succ fuel =>
    cases readValue_front h with
    | scalar _ _ hk => exact hk
    | array hk _ => exact hk
    | object hk _ => exact hk

theorem firstKind_ne_eof (v : Value) : firstKind v ≠ .eof := by
  cases v <;> nofun

/-- Whatever is read, at least one token has been passed over. -/
theorem read_shorter (fuel : Nat) :
    (∀ n ts v after, readValue fuel n ts = .ok (v, after) → after.length < ts.length) ∧
    (∀ n isFirst ts vs after, readItems fuel n isFirst ts = .ok (vs, after) →
      after.length < ts.length) ∧
    (∀ n isFirst ts written after, readWritten fuel n isFirst ts = .ok (written, after) →
      after.length < ts.length) := by
  induction fuel with
  | zero => exact ⟨nofun, nofun, nofun⟩
  | succ fuel ih =>
    obtain ⟨ihValue, ihItems, ihWritten⟩ := ih
    refine ⟨?_, ?_, ?_⟩
    · intro n ts v after h
      have htail : ts.tail.length < ts.length :=
        tail_shorter (by rw [head_of_readValue h]; exact firstKind_ne_eof v)
      cases readValue_front h with
      | scalar => exact htail
      | array _ hitems => exact Nat.lt_trans (ihItems _ _ _ _ _ hitems) htail
      | object _ hmembers => exact Nat.lt_trans (ihWritten _ _ _ _ _ hmembers) htail
    · intro n isFirst ts vs after h
      rcases readItems_cases h with ⟨hnext, -, rfl⟩ | ⟨next, v, behind, vs', hnext, hv, hvs, -⟩
      · exact tail_shorter (by rw [nextElement_none hnext]; nofun)
      · have hbehind := ihValue _ _ _ _ hv
        have hafter := ihItems _ _ _ _ _ hvs
        have hle := (nextElement_some hnext).length_le
        omega
    · intro n isFirst ts written after h
      rcases readWritten_cases h with
        ⟨hnext, -, rfl⟩ | ⟨key, next, inner, v, behind, more, hnext, hcolon, hv, hmore, -⟩
      · exact tail_shorter (by rw [nextKey_none hnext]; nofun)
      · have hlt := nextKey_shorter hnext
        have hinner := expectColon_shorter hcolon
        have hbehind := ihValue _ _ _ _ hv
        have hafter := ihWritten _ _ _ _ _ hmore
        omega

/-! ## What is kept of the members -/

theorem lookup_insertMember (key k : String) (v : Value) (kept : List (String × Value)) :
    (insertMember k v kept).lookup key = if key == k then some v else kept.lookup key := by
  induction kept with
  | nil =>
    rw [insertMember, List.lookup_cons]
    cases key == k <;> rfl
  | cons m kept ih =>
    obtain ⟨k', v'⟩ := m
    rw [insertMember]
    split
    · rw [List.lookup_cons]
      cases key == k <;> rfl
    · split
      · rename_i heq
        obtain rfl := eq_of_beq heq
        rw [List.lookup_cons, List.lookup_cons]
        cases key == k <;> rfl
      · rename_i hne
        rw [List.lookup_cons, List.lookup_cons, ih]
        by_cases hk : key = k'
        · subst hk
          have hother : (key == k) = false := by
            rw [beq_eq_false_iff_ne]
            rintro rfl
            exact hne (beq_self_eq_true key)
          rw [hother, beq_self_eq_true]
          rfl
        · rw [beq_eq_false_iff_ne.mpr hk]

theorem keptMembers_append (ms : List (String × Value)) (m : String × Value) :
    keptMembers (ms ++ [m]) = insertMember m.1 m.2 (keptMembers ms) := by
  rw [keptMembers, List.foldl_append]
  rfl

/-- Of the members of a key the last is kept. -/
theorem lookup_keptMembers (key : String) (ms : List (String × Value)) :
    (keptMembers ms).lookup key = ms.reverse.lookup key := by
  induction ms using List.reverseRecOn with
  | nil => rfl
  | append_singleton ms m ih =>
    rw [keptMembers_append, lookup_insertMember, ih, List.reverse_append, List.reverse_singleton,
      List.singleton_append, List.lookup_cons]
    cases key == m.1 <;> rfl

theorem insertMember_perm (h : key ∉ kept.map Prod.fst) :
    (insertMember key v kept).Perm ((key, v) :: kept) := by
  induction kept with
  | nil => exact List.Perm.refl _
  | cons m kept ih =>
    obtain ⟨k, w⟩ := m
    rw [List.map_cons, List.mem_cons, not_or] at h
    rw [insertMember]
    split
    · exact List.Perm.refl _
    · rw [if_neg (by simpa using h.1)]
      exact ((ih h.2).cons (k, w)).trans (List.Perm.swap (key, v) (k, w) kept)

/-- If no key is written twice, all members are kept. -/
theorem keptMembers_perm (ms : List (String × Value)) (h : (ms.map Prod.fst).Nodup) :
    (keptMembers ms).Perm ms := by
  induction ms using List.reverseRecOn with
  | nil => exact List.Perm.refl _
  | append_singleton ms m ih =>
    rw [List.map_append, List.nodup_append] at h
    obtain ⟨hms, -, hdisjoint⟩ := h
    have hperm := ih hms
    have hfresh : m.1 ∉ (keptMembers ms).map Prod.fst := by
      rw [(hperm.map Prod.fst).mem_iff]
      intro hmem
      exact hdisjoint _ hmem _ (by simp) rfl
    rw [keptMembers_append]
    calc insertMember m.1 m.2 (keptMembers ms)
        |>.Perm (m :: keptMembers ms) := insertMember_perm hfresh
      _ |>.Perm (m :: ms) := hperm.cons m
      _ |>.Perm (ms ++ [m]) := (List.perm_append_singleton m ms).symm

theorem lookup_eq_some_iff {ms : List (String × Value)} (h : (ms.map Prod.fst).Nodup) :
    ms.lookup key = some v ↔ (key, v) ∈ ms := by
  induction ms with
  | nil => simp
  | cons m ms ih =>
    rw [List.map_cons, List.nodup_cons] at h
    rw [List.lookup_cons, List.mem_cons]
    by_cases hkey : key = m.1
    · subst hkey
      have hnot : (m.1, v) ∉ ms := fun hmem => h.1 (List.mem_map.mpr ⟨_, hmem, rfl⟩)
      simp only [beq_self_eq_true, hnot, or_false]
      rw [Option.some.injEq, eq_comm]
      exact ⟨fun hv => by rw [hv], fun hm => by rw [← hm]⟩
    · have hne : (key, v) ≠ m := by
        rintro rfl
        exact hkey rfl
      rw [beq_eq_false_iff_ne.mpr hkey]
      simp only [hne, false_or]
      exact ih h.2

end Census.Json
