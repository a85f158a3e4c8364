import Census.Proofs.Json.Reading
import Census.Settings.Decode
/-!
Settings are read straight from the tokens of a text, or taken from a value that was read from them
before. Both ways give the same settings or no settings, as long as no key of the object is written twice:
a value has lost all members of a key but the last.
-/

namespace Census.Settings

open Census.Json (Cause Fault Token Value expectColon expectColon_shorter expectEnd firstKind
  headToken head_of_readValue keptMembers keptMembers_perm lookup_eq_some_iff nextElement
  nextElement_none nextElement_some nextKey nextKey_shorter readItems readItems_cases readValue
  readValue_array readValue_object readWritten readWritten_cases read_shorter tail_shorter)

variable {α β : Type} {f F n : Nat} {isFirst : Bool} {ts : List Token} {v : Value}

/-- What is read straight from the tokens is what is taken from what is read from them, and nothing can be
taken where nothing is read. -/
def Agrees (take : β → Except Cause α) (straight : Except Fault (α × List Token))
    (read : Except Fault (β × List Token)) : Prop :=
  (∃ a b after, straight = .ok (a, after) ∧ read = .ok (b, after) ∧ take b = .ok a) ∨
    (∃ e, straight = .error e) ∧ ∀ b after, read = .ok (b, after) → ∃ c, take b = .error c

theorem agrees_ok {take : β → Except Cause α} {a : α} {b : β} (h : take b = .ok a) :
    Agrees take (.ok (a, ts)) (.ok (b, ts)) := .inl ⟨a, b, ts, rfl, rfl, h⟩

theorem agrees_error {take : β → Except Cause α} {e e' : Fault} :
    Agrees take (.error e) (.error e') := .inr ⟨⟨e, rfl⟩, nofun⟩

theorem Agrees.read_ok {take : β → Except Cause α} {straight : Except Fault (α × List Token)}
    {read : Except Fault (β × List Token)} {a : α} {after : List Token}
    (h : Agrees take straight read) (hs : straight = .ok (a, after)) :
    ∃ b, read = .ok (b, after) ∧ take b = .ok a := by
  rcases h with ⟨a', b, after', hs', hread, htake⟩ | ⟨⟨e, he⟩, -⟩
  · obtain ⟨rfl, rfl⟩ := Prod.mk.inj (Except.ok.inj (hs'.symm.trans hs))
    exact ⟨b, hread, htake⟩
  · rw [he] at hs
    contradiction

theorem Agrees.straight_ok {take : β → Except Cause α} {straight : Except Fault (α × List Token)}
    {read : Except Fault (β × List Token)} {a : α} {b : β} {after : List Token}
    (h : Agrees take straight read) (hread : read = .ok (b, after)) (htake : take b = .ok a) :
    straight = .ok (a, after) := by
  rcases h with ⟨a', b', after', hs, hread', htake'⟩ | ⟨-, hrefuse⟩
  · obtain ⟨rfl, rfl⟩ := Prod.mk.inj (Except.ok.inj (hread'.symm.trans hread))
    obtain rfl := Except.ok.inj (htake'.symm.trans htake)
    exact hs
  · obtain ⟨c, hc⟩ := hrefuse b after hread
    rw [hc] at htake
    contradiction

/-- Two parts that are read one after another, where what is taken from the second may depend on what has
been taken from the first. -/
theorem Agrees.andThen {α₁ α₂ β₁ β₂ : Type} {take₁ : β₁ → Except Cause α₁}
    {take₂ : α₁ → β₂ → Except Cause α₂} {take : β → Except Cause α} {f : α₁ → α₂ → α}
    {g : β₁ → β₂ → β} {s₁ : Except Fault (α₁ × List Token)} {r₁ : Except Fault (β₁ × List Token)}
    {s₂ : α₁ → List Token → Except Fault (α₂ × List Token)}
    {r₂ : List Token → Except Fault (β₂ × List Token)} (h₁ : Agrees take₁ s₁ r₁)
    (htake : ∀ b b', take (g b b') = do
      let a ← take₁ b
      let a' ← take₂ a b'
      return f a a')
    (h₂ : ∀ a b after, r₁ = .ok (b, after) → Agrees (take₂ a) (s₂ a after) (r₂ after)) :
    Agrees take (s₁ >>= fun x => s₂ x.1 x.2 >>= fun y => pure (f x.1 y.1, y.2))
      (r₁ >>= fun x => r₂ x.2 >>= fun y => pure (g x.1 y.1, y.2)) := by
  rcases h₁ with ⟨a, b, after, rfl, rfl, ha⟩ | ⟨⟨e, rfl⟩, hrefuse⟩
  · rcases h₂ a b after rfl with ⟨a', b', last, hs, hr, ha'⟩ | ⟨⟨e, hs⟩, hrefuse⟩
    · simp only [ok_bind, hs, hr]
      refine agrees_ok ?_
      rw [htake, ha, ok_bind, ha']
      rfl
    · simp only [ok_bind, hs]
      refine .inr ⟨⟨e, rfl⟩, fun all last hall => ?_⟩
      cases hr : r₂ after with
      | error e => simp [hr] at hall
      | ok x =>
        obtain ⟨c, hc⟩ := hrefuse x.1 x.2 hr
        obtain ⟨rfl, -⟩ : g b x.1 = all ∧ x.2 = last := by simpa [hr] using hall
        refine ⟨c, ?_⟩
        rw [htake, ha, ok_bind, hc]
        rfl
  · refine .inr ⟨⟨e, rfl⟩, fun all last hall => ?_⟩
    cases hr₁ : r₁ with
    | error e => simp [hr₁] at hall
    | ok x =>
      obtain ⟨c, hc⟩ := hrefuse x.1 x.2 hr₁
      simp only [hr₁, ok_bind] at hall
      cases hr₂ : r₂ x.2 with
      | error e => simp [hr₂] at hall
      | ok y =>
        obtain ⟨rfl, -⟩ : g x.1 y.1 = all ∧ y.2 = last := by simpa [hr₂] using hall
        refine ⟨c, ?_⟩
        rw [htake, hc]
        rfl

/-! ## Single values -/

/-- Where a token is refused, so are all values that start with it. -/
theorem agrees_refused {take : Value → Except Cause α} {e : Fault}
    (h : ∀ v, (headToken ts).kind = firstKind v → ∃ c, take v = .error c) :
    Agrees take (.error e) (readValue F n ts) :=
  .inr ⟨⟨e, rfl⟩, fun v _ hv => h v (head_of_readValue hv)⟩

theorem readPart_agrees (F n : Nat) (ts : List Token) :
    Agrees partOfValue (readPart ts) (readValue (F + 1) n ts) := by
  unfold readPart
  dsimp only
  split
  · rename_i s hk
    simp only [readValue, hk]
    exact agrees_ok rfl
  · rename_i hother
    refine agrees_refused fun v hv => ?_
    cases v with
    | string s => exact absurd hv (hother s)
    | _ => exact ⟨_, rfl⟩

theorem readJobs_agrees (F n : Nat) (ts : List Token) :
    Agrees jobsOfValue (readJobs ts) (readValue (F + 1) n ts) := by
  unfold readJobs
  dsimp only
  split
  · rename_i m hk
    simp only [readValue, hk]
    exact agrees_ok rfl
  · rename_i m hk
    refine agrees_refused fun v hv => ?_
    rw [hk] at hv
    cases v with
    | number x =>
      obtain rfl : Json.Number.negative m = x := by simpa [firstKind] using hv
      exact ⟨_, rfl⟩
    | _ => simp [firstKind] at hv
  · rename_i hnatural hnegative
    refine agrees_refused fun v hv => ?_
    cases v with
    | number x =>
      cases x with
      | natural m => exact absurd hv (hnatural m)
      | negative m => exact absurd hv (hnegative m)
      | rounded isNegative magnitude => exact ⟨_, rfl⟩
    | _ => exact ⟨_, rfl⟩

theorem optionalOfValue_of_ne_null {ofValue : Value → Except Cause α} (h : v ≠ .null) :
    optionalOfValue ofValue v = some <$> ofValue v := by
  cases v with
  | null => exact absurd rfl h
  | _ => rfl

theorem readOptional_agrees {read : List Token → Except Fault (α × List Token)}
    {ofValue : Value → Except Cause α} (h : Agrees ofValue (read ts) (readValue (F + 1) n ts)) :
    Agrees (optionalOfValue ofValue) (readOptional read ts) (readValue (F + 1) n ts) := by
  unfold readOptional
  split
  · rename_i hk
    simp only [readValue, hk]
    exact agrees_ok rfl
  · rename_i hk
    have hnull {v : Value} {after : List Token} (hv : readValue (F + 1) n ts = .ok (v, after)) :
        v ≠ .null := by
      rintro rfl
      exact hk (head_of_readValue hv)
    rcases h with ⟨a, v, after, hread, hv, htake⟩ | ⟨⟨e, hread⟩, hrefuse⟩
    · rw [hread, hv]
      refine agrees_ok ?_
      rw [optionalOfValue_of_ne_null (hnull hv), htake]
      rfl
    · rw [hread]
      refine .inr ⟨⟨e, rfl⟩, fun v after hv => ?_⟩
      obtain ⟨c, hc⟩ := hrefuse v after hv
      refine ⟨c, ?_⟩
      rw [optionalOfValue_of_ne_null (hnull hv), hc]
      rfl

/-! ## Lists -/

/-- The bound on the steps of a whole list covers those of its items. -/
theorem readParts_agrees (f F n : Nat) (isFirst : Bool) (ts : List Token) (hf : ts.length < f)
    (hF : 2 * ts.length + 3 ≤ F) :
    Agrees (List.mapM partOfValue) (readParts f isFirst ts) (readItems F n isFirst ts) := by
  induction f generalizing F isFirst ts with
  | zero => exact absurd hf (Nat.not_lt_zero _)
  | succ f ih =>
    obtain ⟨F, rfl⟩ := Nat.exists_eq_add_of_le' (show 2 ≤ F by omega)
    rw [readParts, readItems]
    cases hnext : nextElement isFirst ts with
    | error fault => exact agrees_error
    | ok next =>
      cases next with
      | none => exact agrees_ok rfl
      | some next =>
        have hle := (nextElement_some hnext).length_le
        have hmore (s : String) (v : Value) (after : List Token)
            (hv : readValue (F + 1) n next = .ok (v, after)) :
            Agrees (List.mapM partOfValue) (readParts f false after)
              (readItems (F + 1) n false after) := by
          have hlt := (read_shorter (F + 1)).1 _ _ _ _ hv
          exact ih (F + 1) false after (by omega) (by omega)
        exact (readPart_agrees F n next).andThen (f := List.cons) (g := List.cons)
          (fun _ _ => List.mapM_cons) hmore

theorem readIgnore_agrees (F n : Nat) (ts : List Token) (hF : 2 * ts.length + 1 ≤ F) :
    Agrees ignoreOfValue (readIgnore ts) (readValue (F + 1) (n + 1) ts) := by
  unfold readIgnore
  dsimp only
  split
  · rename_i hk
    have hlt : ts.tail.length < ts.length := tail_shorter (by rw [hk]; nofun)
    rw [readValue_array hk]
    rcases readParts_agrees (ts.length + 1) F n true ts.tail (by omega) (by omega) with
      ⟨ss, vs, after, hparts, hvs, htake⟩ | ⟨⟨e, hparts⟩, hrefuse⟩
    · rw [hparts, hvs]
      exact agrees_ok htake
    · rw [hparts]
      refine .inr ⟨⟨e, rfl⟩, fun v after hv => ?_⟩
      obtain ⟨r, hvs, hr⟩ := map_eq_ok.mp hv
      obtain ⟨rfl, -⟩ := Prod.mk.inj hr
      exact hrefuse r.1 r.2 hvs
  · rename_i hother
    refine agrees_refused fun v hv => ?_
    cases v with
    | array vs => exact absurd hv hother
    | _ => exact ⟨_, rfl⟩

/-- A list that has ended gives no more elements. -/
theorem readElement_of_none {read : List Token → Except Fault (Option α × List Token)}
    (h : nextElement isFirst ts = .ok none) : readElement isFirst read ts = .ok (none, ts) := by
  rw [readElement, h]
  rfl

theorem readElement_of_some {read : List Token → Except Fault (Option α × List Token)}
    {next : List Token} (h : nextElement isFirst ts = .ok (some next)) :
    readElement isFirst read ts = read next := by
  rw [readElement, h]
  rfl

theorem nextElement_of_bracket (h : (headToken ts).kind = .rightBracket) :
    nextElement isFirst ts = .ok none := by
  simp only [nextElement, h]

/-- The end of a list, with nothing read. -/
def readListEnd (ts : List Token) : Except Fault (Unit × List Token) :=
  (expectListEnd ts).map fun ts => ((), ts)

/-- What the items behind the second of a list give. -/
def noItems : List Value → Except Cause Unit
  | [] => .ok ()
  | more => .error (.tooLong (more.length + 2))

theorem readListEnd_of_bracket (h : (headToken ts).kind = .rightBracket) :
    readListEnd ts = .ok ((), ts.tail) := by
  simp only [readListEnd, expectListEnd, h, map_ok]

theorem readListEnd_agrees (F n : Nat) (ts : List Token) :
    Agrees noItems (readListEnd ts) (readItems (F + 1) n false ts) := by
  by_cases hend : (headToken ts).kind = .rightBracket
  · rw [readListEnd_of_bracket hend, readItems, nextElement_of_bracket hend]
    exact agrees_ok rfl
  · have hrefused : ∃ e, readListEnd ts = .error e := by
      unfold readListEnd expectListEnd
      dsimp only
      split
      · contradiction
      · split <;> exact ⟨_, rfl⟩
      · exact ⟨_, rfl⟩
      · exact ⟨_, rfl⟩
    refine .inr ⟨hrefused, fun vs after hvs => ?_⟩
    rcases readItems_cases hvs with ⟨hnone, -, -⟩ | ⟨_, _, _, _, -, -, -, rfl⟩
    · exact absurd (nextElement_none hnone) hend
    · exact ⟨_, rfl⟩

/-- The second field of a list, which is at its end behind it. -/
def readSecond (ts : List Token) : Except Fault (Option UInt64 × List Token) := do
  let (jobs, ts) ← readElement false (readOptional readJobs) ts
  let (_, ts) ← readListEnd ts
  return (jobs, ts)

def secondOfItems : List Value → Except Cause (Option UInt64)
  | [] => .ok none
  | j :: more => do
    let jobs ← optionalOfValue jobsOfValue j
    noItems more
    return jobs

theorem readPair_eq (ts : List Token) : readPair ts = do
    let (ignore, ts) ← readElement true (readOptional readIgnore) ts
    let (jobs, ts) ← readSecond ts
    return (⟨ignore, jobs⟩, ts) := by
  rw [readPair]
  cases readElement true (readOptional readIgnore) ts with
  | error e => rfl
  | ok r =>
    simp only [ok_bind, readSecond]
    cases readElement false (readOptional readJobs) r.2 with
    | error e => rfl
    | ok r' =>
      simp only [ok_bind, readListEnd]
      cases expectListEnd r'.2 <;> rfl

theorem ofValue_cons (i : Value) (vs : List Value) : ofValue (.array (i :: vs)) = do
    let ignore ← optionalOfValue ignoreOfValue i
    let jobs ← secondOfItems vs
    return ⟨ignore, jobs⟩ := by
  cases vs with
  | nil => rfl
  | cons j more =>
    simp only [ofValue, secondOfItems]
    cases optionalOfValue ignoreOfValue i with
    | error c => rfl
    | ok ignore =>
      simp only [ok_bind]
      cases optionalOfValue jobsOfValue j with
      | error c => rfl
      | ok jobs =>
        cases more <;> rfl

theorem readSecond_agrees (F n : Nat) (ts : List Token) :
    Agrees secondOfItems (readSecond ts) (readItems (F + 2) n false ts) := by
  rw [readItems, readSecond]
  cases hnext : nextElement false ts with
  | error e =>
    rw [readElement, hnext]
    exact agrees_error
  | ok next =>
    cases next with
    | none =>
      rw [readElement_of_none hnext]
      simp only [ok_bind, readListEnd_of_bracket (nextElement_none hnext)]
      exact agrees_ok rfl
    | some next =>
      rw [readElement_of_some hnext]
      exact (readOptional_agrees (readJobs_agrees F n next)).andThen (f := fun jobs _ => jobs)
        (g := List.cons) (fun _ _ => rfl) fun _ _ after _ => readListEnd_agrees F n after

theorem readPair_agrees (F n : Nat) (ts : List Token) (hF : 2 * ts.length + 3 ≤ F) :
    Agrees (fun vs => ofValue (.array vs)) (readPair ts) (readItems F (n + 1) true ts) := by
  obtain ⟨F, rfl⟩ := Nat.exists_eq_add_of_le' (show 3 ≤ F by omega)
  rw [readItems, readPair_eq]
  cases hnext : nextElement true ts with
  | error e =>
    rw [readElement, hnext]
    exact agrees_error
  | ok next =>
    cases next with
    | none =>
      have hend := nextElement_none hnext
      rw [readElement_of_none hnext]
      simp only [ok_bind, readSecond]
      rw [readElement_of_none (nextElement_of_bracket hend)]
      simp only [ok_bind, readListEnd_of_bracket hend]
      exact agrees_ok rfl
    | some next =>
      have hle := (nextElement_some hnext).length_le
      rw [readElement_of_some hnext]
      have hfirst := readOptional_agrees (readIgnore_agrees (F + 1) n next (by omega))
      exact hfirst.andThen (f := Settings.mk) (g := List.cons) ofValue_cons
        fun _ _ after _ => readSecond_agrees F (n + 1) after

/-! ## Objects -/

/-- The fields that the members of an object give, taken one after another. -/
def takeFields : Option (Option (List String)) → Option (Option UInt64) → List (String × Value) →
    Except Cause Settings
  | ignore, jobs, [] => .ok ⟨ignore.getD none, jobs.getD none⟩
  | ignore, jobs, (key, v) :: more =>
    if key = "ignore" then
      if ignore.isSome then .error (.duplicateField "ignore")
      else do takeFields (some (← optionalOfValue ignoreOfValue v)) jobs more
    else if key = "jobs" then
      if jobs.isSome then .error (.duplicateField "jobs")
      else do takeFields ignore (some (← optionalOfValue jobsOfValue v)) more
    else .error (.unknownField key fieldNames)

/-- A member whose value is one part and whose other members are the other. -/
theorem agrees_member {γ : Type} {key : String} {next : List Token}
    {take : List (String × Value) → Except Cause Settings} {takeOne : Value → Except Cause γ}
    {takeMore : γ → List (String × Value) → Except Cause Settings}
    {readOne : List Token → Except Fault (γ × List Token)}
    {more : γ → List Token → Except Fault (Settings × List Token)}
    (hnext : nextKey isFirst ts = .ok (some (key, next)))
    (htake : ∀ v ms, take ((key, v) :: ms) = takeOne v >>= fun c => takeMore c ms)
    (hone : ∀ inner, inner.length < next.length →
      Agrees takeOne (readOne inner) (readValue F n inner))
    (hmore : ∀ c after, after.length < next.length →
      Agrees (takeMore c) (more c after) (readWritten F n false after)) :
    Agrees take (expectColon next >>= fun inner => readOne inner >>= fun r => more r.1 r.2)
      (readWritten (F + 1) n isFirst ts) := by
  rw [readWritten, hnext]
  simp only [ok_bind]
  cases hcolon : expectColon next with
  | error e => exact agrees_error
  | ok inner =>
    have hlt := expectColon_shorter hcolon
    have hrest (c : γ) (v : Value) (after : List Token)
        (hv : readValue F n inner = .ok (v, after)) :
        Agrees (takeMore c) (more c after) (readWritten F n false after) :=
      hmore c after (Nat.lt_trans ((read_shorter F).1 _ _ _ _ hv) hlt)
    have hparts (v : Value) (ms : List (String × Value)) : take ((key, v) :: ms) =
        takeOne v >>= fun c => takeMore c ms >>= fun s => pure s := by
      simp only [htake, bind_pure]
    have hall := (hone inner hlt).andThen (f := fun _ s => s) (g := fun v ms => (key, v) :: ms)
      hparts hrest
    have hpure (r : Except Fault (Settings × List Token)) :
        (r >>= fun x => pure (x.1, x.2)) = r := bind_pure r
    simp only [hpure] at hall
    exact hall

/-- A member that is refused is refused however its value and the members behind it are read. -/
theorem agrees_refusedMember {key : String} {next : List Token} {c : Cause} {e : Fault}
    {take : List (String × Value) → Except Cause Settings}
    (hnext : nextKey isFirst ts = .ok (some (key, next)))
    (htake : ∀ v ms, take ((key, v) :: ms) = .error c) :
    Agrees take (.error e) (readWritten (F + 1) n isFirst ts) := by
  refine .inr ⟨⟨e, rfl⟩, fun ms after hms => ?_⟩
  rcases readWritten_cases hms with ⟨hnone, -, -⟩ | ⟨_, _, _, v, _, more, hkey, -, -, -, rfl⟩
  · rw [hnone] at hnext
    exact absurd hnext (by simp)
  · rw [hkey] at hnext
    obtain ⟨rfl, -⟩ := Prod.mk.inj (Option.some.inj (Except.ok.inj hnext))
    exact ⟨c, htake v more⟩

theorem readFields_ignore {ignore : Option (Option (List String))} {jobs : Option (Option UInt64)}
    {next : List Token} (hnext : nextKey isFirst ts = .ok (some ("ignore", next))) :
    readFields (f + 1) isFirst ignore jobs ts =
      if ignore.isSome then .error (refuseMember (.duplicateField "ignore") next)
      else expectColon next >>= fun inner => readOptional readIgnore inner >>= fun r =>
        readFields f false (some r.1) jobs r.2 := by
  rw [readFields, hnext]
  rfl

theorem readFields_jobs {ignore : Option (Option (List String))} {jobs : Option (Option UInt64)}
    {next : List Token} (hnext : nextKey isFirst ts = .ok (some ("jobs", next))) :
    readFields (f + 1) isFirst ignore jobs ts =
      if jobs.isSome then .error (refuseMember (.duplicateField "jobs") next)
      else expectColon next >>= fun inner => readOptional readJobs inner >>= fun r =>
        readFields f false ignore (some r.1) r.2 := by
  rw [readFields, hnext]
  rfl

theorem readFields_other {ignore : Option (Option (List String))} {jobs : Option (Option UInt64)}
    {key : String} {next : List Token} (hnext : nextKey isFirst ts = .ok (some (key, next)))
    (hignore : key ≠ "ignore") (hjobs : key ≠ "jobs") :
    readFields (f + 1) isFirst ignore jobs ts =
      .error (refuseMember (.unknownField key fieldNames) next) := by
  rw [readFields, hnext]
  simp only [ok_bind]
  rfl

theorem readFields_agrees (f F n : Nat) (isFirst : Bool) (ignore : Option (Option (List String)))
    (jobs : Option (Option UInt64)) (ts : List Token) (hf : ts.length < f)
    (hF : 2 * ts.length + 3 ≤ F) :
    Agrees (takeFields ignore jobs) (readFields f isFirst ignore jobs ts)
      (readWritten F (n + 1) isFirst ts) := by
  induction f generalizing F isFirst ignore jobs ts with
  | zero => exact absurd hf (Nat.not_lt_zero _)
  | succ f ih =>
    obtain ⟨F, rfl⟩ := Nat.exists_eq_add_of_le' (show 2 ≤ F by omega)
    cases hnext : nextKey isFirst ts with
    | error e =>
      rw [readFields, readWritten, hnext]
      exact agrees_error
    | ok next =>
      cases next with
      | none =>
        rw [readFields, readWritten, hnext]
        exact agrees_ok rfl
      | some next =>
        obtain ⟨key, next⟩ := next
        have hlt := nextKey_shorter hnext
        by_cases hignore : key = "ignore"
        · subst hignore
          rw [readFields_ignore hnext]
          by_cases hsome : ignore.isSome = true
          · rw [if_pos hsome]
            exact agrees_refusedMember hnext fun v ms => by rw [takeFields, if_pos rfl, if_pos hsome]
          · have htake (v : Value) (ms : List (String × Value)) :
                takeFields ignore jobs (("ignore", v) :: ms) =
                  optionalOfValue ignoreOfValue v >>= fun o => takeFields (some o) jobs ms := by
              rw [takeFields, if_pos rfl, if_neg hsome]
            rw [if_neg hsome]
            exact agrees_member hnext htake
              (fun inner _ => readOptional_agrees (readIgnore_agrees F n inner (by omega)))
              (fun o after _ => ih (F + 1) false (some o) jobs after (by omega) (by omega))
        · by_cases hjobs : key = "jobs"
          · subst hjobs
            rw [readFields_jobs hnext]
            by_cases hsome : jobs.isSome = true
            · rw [if_pos hsome]
              exact agrees_refusedMember hnext fun v ms => by
                rw [takeFields, if_neg hignore, if_pos rfl, if_pos hsome]
            · have htake (v : Value) (ms : List (String × Value)) :
                  takeFields ignore jobs (("jobs", v) :: ms) =
                    optionalOfValue jobsOfValue v >>= fun o => takeFields ignore (some o) ms := by
                rw [takeFields, if_neg hignore, if_pos rfl, if_neg hsome]
              rw [if_neg hsome]
              exact agrees_member hnext htake
                (fun inner _ => readOptional_agrees (readJobs_agrees F (n + 1) inner))
                (fun o after _ => ih (F + 1) false ignore (some o) after (by omega) (by omega))
          · rw [readFields_other hnext hignore hjobs]
            exact agrees_refusedMember hnext fun v ms => by rw [takeFields, if_neg hignore, if_neg hjobs]

/-! ## What the members give

Fields are taken from the members in the order in which they are written, or from the kept members in the
order of their keys. Either way a field is what its member gives, whichever place the member has. -/

/-- What a field is, given what it was and the member for it. -/
def fieldOf (ofValue : Value → Except Cause α) (old : Option α) : Option Value → Except Cause (Option α)
  | none => .ok old
  | some v => optionalOfValue ofValue v

theorem addField_ignore (s : Settings) (v : Value) : addField s ("ignore", v) =
    (optionalOfValue ignoreOfValue v).map fun ignore => { s with ignore } := by
  rw [addField]
  cases optionalOfValue ignoreOfValue v <;> rfl

theorem addField_jobs (s : Settings) (v : Value) : addField s ("jobs", v) =
    (optionalOfValue jobsOfValue v).map fun jobs => { s with jobs } := by
  rw [addField]
  cases optionalOfValue jobsOfValue v <;> rfl

theorem addField_other (s : Settings) {key : String} (v : Value) (hignore : key ≠ "ignore")
    (hjobs : key ≠ "jobs") : addField s (key, v) = .error (.unknownField key fieldNames) := by
  unfold addField
  split
  · simp_all
  · simp_all
  · rename_i heq
    obtain ⟨rfl, rfl⟩ := Prod.mk.inj heq
    rfl

theorem lookup_of_not_mem {key : String} {ms : List (String × Value)} (h : key ∉ ms.map Prod.fst) :
    ms.lookup key = none := by
  rw [List.lookup_eq_none_iff]
  intro m hm
  rw [bne_iff_ne]
  rintro rfl
  exact h (List.mem_map_of_mem hm)

theorem lookup_cons_of_ne {key k : String} {v : Value} {ms : List (String × Value)} (h : key ≠ k) :
    ((k, v) :: ms).lookup key = ms.lookup key := by
  rw [List.lookup_cons, beq_eq_false_iff_ne.mpr h]

theorem lookup_cons_self {key : String} {v : Value} {ms : List (String × Value)} :
    ((key, v) :: ms).lookup key = some v := by
  rw [List.lookup_cons, beq_self_eq_true]

theorem addFields_eq_ok {s₀ s : Settings} {ms : List (String × Value)}
    (h : (ms.map Prod.fst).Nodup) : ms.foldlM addField s₀ = .ok s ↔
      (∀ key ∈ ms.map Prod.fst, key = "ignore" ∨ key = "jobs") ∧
      fieldOf ignoreOfValue s₀.ignore (ms.lookup "ignore") = .ok s.ignore ∧
      fieldOf jobsOfValue s₀.jobs (ms.lookup "jobs") = .ok s.jobs := by
  have hjobs : "jobs" ≠ "ignore" := by decide
  induction ms generalizing s₀ with
  | nil =>
    obtain ⟨ignore₀, jobs₀⟩ := s₀
    obtain ⟨ignore, jobs⟩ := s
    simp [fieldOf]
  | cons m ms ih =>
    obtain ⟨key, v⟩ := m
    rw [List.map_cons, List.nodup_cons] at h
    obtain ⟨hfresh, hrest⟩ := h
    rw [List.foldlM_cons, List.map_cons, List.forall_mem_cons]
    by_cases hignore : key = "ignore"
    · subst hignore
      rw [addField_ignore, lookup_cons_self, lookup_cons_of_ne hjobs, fieldOf]
      cases optionalOfValue ignoreOfValue v with
      | error c => simp
      | ok ignore =>
        rw [map_ok, ok_bind]
        refine (ih hrest).trans ?_
        rw [lookup_of_not_mem hfresh]
        simp [fieldOf]
    · by_cases hjobs : key = "jobs"
      · subst hjobs
        rw [addField_jobs, lookup_cons_self, lookup_cons_of_ne (Ne.symm hignore)]
        simp only [fieldOf]
        cases optionalOfValue jobsOfValue v with
        | error c => simp
        | ok jobs =>
          rw [map_ok, ok_bind]
          refine (ih hrest).trans ?_
          rw [lookup_of_not_mem hfresh]
          simp [fieldOf]
      · rw [addField_other _ _ hignore hjobs]
        simp [hignore, hjobs]

/-- What is taken from the members as they are written is what they give one after another. -/
theorem takeFields_eq_ok {ignore : Option (Option (List String))} {jobs : Option (Option UInt64)}
    {ms : List (String × Value)} {s : Settings} : takeFields ignore jobs ms = .ok s ↔
      (ms.map Prod.fst).Nodup ∧ (ignore.isSome → "ignore" ∉ ms.map Prod.fst) ∧
      (jobs.isSome → "jobs" ∉ ms.map Prod.fst) ∧
      ms.foldlM addField ⟨ignore.getD none, jobs.getD none⟩ = .ok s := by
  induction ms generalizing ignore jobs with
  | nil => simp [takeFields]
  | cons m ms ih =>
    obtain ⟨key, v⟩ := m
    rw [List.map_cons, List.nodup_cons, List.foldlM_cons, takeFields]
    by_cases hignore : key = "ignore"
    · subst hignore
      rw [if_pos rfl, addField_ignore]
      cases ignore with
      | some ignore => simp
      | none =>
        cases optionalOfValue ignoreOfValue v with
        | error c => simp
        | ok ignore => simp [ih]; tauto
    · by_cases hjobs : key = "jobs"
      · subst hjobs
        rw [if_neg hignore, if_pos rfl, addField_jobs]
        cases jobs with
        | some jobs => simp
        | none =>
          cases optionalOfValue jobsOfValue v with
          | error c => simp
          | ok jobs => simp [ih]; tauto
      · rw [if_neg hignore, if_neg hjobs, addField_other _ _ hignore hjobs]
        simp

theorem lookup_kept {ms : List (String × Value)} (h : (ms.map Prod.fst).Nodup) (key : String) :
    (keptMembers ms).lookup key = ms.lookup key := by
  have hperm := keptMembers_perm ms h
  have hkept : ((keptMembers ms).map Prod.fst).Nodup := (hperm.map Prod.fst).nodup_iff.mpr h
  ext v
  rw [lookup_eq_some_iff hkept, lookup_eq_some_iff h]
  exact hperm.mem_iff

theorem ofValue_kept {ms : List (String × Value)} {s : Settings} (h : (ms.map Prod.fst).Nodup) :
    ofValue (.object (keptMembers ms)) = .ok s ↔ takeFields none none ms = .ok s := by
  have hperm := keptMembers_perm ms h
  have hkept : ((keptMembers ms).map Prod.fst).Nodup := (hperm.map Prod.fst).nodup_iff.mpr h
  have hkeys (key : String) : key ∈ (keptMembers ms).map Prod.fst ↔ key ∈ ms.map Prod.fst :=
    (hperm.map Prod.fst).mem_iff
  rw [takeFields_eq_ok]
  have hfold : ofValue (.object (keptMembers ms)) = (keptMembers ms).foldlM addField .empty := rfl
  rw [hfold, addFields_eq_ok hkept, addFields_eq_ok h, lookup_kept h, lookup_kept h]
  simp only [hkeys]
  simp [h, empty]

/-! ## Whole texts -/

/-- The settings at the front of a text. -/
def readFront (ts : List Token) : Except Fault (Settings × List Token) :=
  match (headToken ts).kind with
  | .leftBracket => readPair ts.tail
  | .leftBrace => readFields (ts.length + 1) true none none ts.tail
  | _ => .error (misfit wholeWanted (headToken ts))

theorem ofTokens_eq (ts : List Token) : ofTokens ts = do
    let (settings, ts) ← readFront ts
    expectEnd ts
    return settings := by
  unfold ofTokens readFront
  dsimp only
  cases (headToken ts).kind <;> rfl

theorem misfitValue_error {wanted : String} : ∃ c, (misfitValue wanted v : Except Cause α) = .error c :=
  ⟨_, rfl⟩

theorem readFront_agrees (F n : Nat) (ts : List Token) (hF : 2 * ts.length + 1 ≤ F)
    (hdistinct : (headToken ts).kind = .leftBrace → ∀ ms after,
      readWritten F (n + 1) true ts.tail = .ok (ms, after) → (ms.map Prod.fst).Nodup) :
    Agrees ofValue (readFront ts) (readValue (F + 1) (n + 2) ts) := by
  unfold readFront
  split
  · rename_i hk
    have hlt : ts.tail.length < ts.length := tail_shorter (by rw [hk]; nofun)
    rw [readValue_array hk]
    rcases readPair_agrees F n ts.tail (by omega) with
      ⟨s, vs, after, hpair, hvs, htake⟩ | ⟨⟨e, hpair⟩, hrefuse⟩
    · rw [hpair, hvs]
      exact agrees_ok htake
    · rw [hpair]
      refine .inr ⟨⟨e, rfl⟩, fun v after hv => ?_⟩
      obtain ⟨r, hvs, hr⟩ := map_eq_ok.mp hv
      obtain ⟨rfl, -⟩ := Prod.mk.inj hr
      exact hrefuse r.1 r.2 hvs
  · rename_i hk
    have hlt : ts.tail.length < ts.length := tail_shorter (by rw [hk]; nofun)
    rw [readValue_object hk]
    rcases readFields_agrees (ts.length + 1) F n true none none ts.tail (by omega) (by omega) with
      ⟨s, ms, after, hfields, hms, htake⟩ | ⟨⟨e, hfields⟩, hrefuse⟩
    · rw [hfields, hms]
      exact agrees_ok ((ofValue_kept (hdistinct hk ms after hms)).mpr htake)
    · rw [hfields]
      refine .inr ⟨⟨e, rfl⟩, fun v after hv => ?_⟩
      obtain ⟨r, hms, hr⟩ := map_eq_ok.mp hv
      obtain ⟨rfl, -⟩ := Prod.mk.inj hr
      cases hof : ofValue (.object (keptMembers r.1)) with
      | error c => exact ⟨c, rfl⟩
      | ok s =>
        obtain ⟨c, hc⟩ := hrefuse r.1 r.2 hms
        rw [(ofValue_kept (hdistinct hk r.1 r.2 hms)).mp hof] at hc
        contradiction
  · rename_i harray hobject
    refine agrees_refused fun v hv => ?_
    cases v with
    | array vs => exact absurd hv harray
    | object ms => exact absurd hv hobject
    | _ => exact misfitValue_error

end Census.Settings
