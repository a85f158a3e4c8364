import Census.Disk.Volume
import Census.Proofs.Disk.Under
import Mathlib.Data.List.Basic
/-!
Listings and paths in a tree. What can be found at the path of a name in a directory is an entry that
the directory lists, whichever links the path of the directory itself goes through.
-/

namespace Census.Disk

/-! ## Steps of paths -/

theorem pieces_ne_nil (cs : List Char) : pieces cs ≠ [] := by
  cases cs with
  | nil => simp [pieces]
  | cons c cs =>
    unfold pieces
    split
    · simp
    · split <;> simp

theorem pieces_append_slash (as bs : List Char) :
    pieces (as ++ '/' :: bs) = pieces as ++ pieces bs := by
  induction as with
  | nil => simp [pieces]
  | cons a as ih =>
    rw [List.cons_append, pieces, pieces]
    by_cases ha : a = '/'
    · simp [ha, ih]
    · obtain ⟨p, ps, hp⟩ := List.exists_cons_of_ne_nil (pieces_ne_nil as)
      simp [ha, ih, hp]

theorem pieces_of_noSlash {cs : List Char} (h : '/' ∉ cs) : pieces cs = [cs] := by
  induction cs with
  | nil => rfl
  | cons c cs ih =>
    simp only [List.mem_cons, not_or] at h
    rw [pieces, ih h.2]
    simp [Ne.symm h.1]

/-- The names between the slashes of a text. -/
def between (cs : List Char) : List String :=
  ((pieces cs).filter (!·.isEmpty)).map String.ofList

theorem steps_of_append_slash {path name : String} {cs : List Char} (h : isEntryName name = true)
    (hp : path.toList = cs ++ '/' :: name.toList) : steps path = between cs ++ [name] := by
  have hname := pieces_of_noSlash (slash_notMem h)
  have hne : name.toList.isEmpty = false := by simpa using ne_empty_of_isEntryName h
  simp [steps, between, hp, pieces_append_slash, hname, hne]

/-- The last piece is empty only after a slash. -/
theorem getLast?_pieces {cs : List Char} (hne : cs ≠ []) (h : cs.getLast? ≠ some '/') :
    ∃ p, (pieces cs).getLast? = some p ∧ p ≠ [] := by
  induction cs with
  | nil => exact absurd rfl hne
  | cons c cs ih =>
    cases cs with
    | nil =>
      have hc : c ≠ '/' := by simpa using h
      exact ⟨[c], by simp [pieces, hc], by simp⟩
    | cons d ds =>
      obtain ⟨p, hp, hpne⟩ := ih (by simp) (by simpa using h)
      obtain ⟨q, qs, hq⟩ := List.exists_cons_of_ne_nil (pieces_ne_nil (d :: ds))
      rw [hq] at hp
      by_cases hc : c = '/'
      · exact ⟨p, by rw [pieces, hq]; simpa [hc] using hp, hpne⟩
      · cases qs with
        | nil => exact ⟨c :: q, by rw [pieces, hq]; simp [hc], by simp⟩
        | cons q' qs => exact ⟨p, by rw [pieces, hq]; simpa [hc] using hp, hpne⟩

theorem steps_of_noSlash_end {path : String} (hne : path ≠ "")
    (h : path.toList.getLast? ≠ some '/') : steps path = between path.toList := by
  obtain ⟨p, hp, hpne⟩ := getLast?_pieces (by simpa using hne) h
  have hempty : p.isEmpty = false := by simpa using hpne
  have hsplit : (pieces path.toList).dropLast ++ [p] = pieces path.toList :=
    List.dropLast_append_getLast? _ hp
  rw [between, ← hsplit]
  simp [steps, hp, hempty]

/-- The path of a directory leads through the names before its entries. A slash at its end asks once
more for a directory. -/
theorem steps_directory {directory : String} (hne : directory ≠ "") :
    ∃ cs, lead directory = cs ++ ['/'] ∧
      (steps directory = between cs ∨ steps directory = between cs ++ ["."]) := by
  have hempty : directory.isEmpty = false := by simpa using hne
  by_cases h : directory.toList.getLast? = some '/'
  · obtain ⟨cs, hcs⟩ := List.getLast?_eq_some_iff.mp h
    refine ⟨cs, by simp [lead, hcs], Or.inr ?_⟩
    have hp : pieces directory.toList = pieces cs ++ [[]] := by
      rw [hcs, pieces_append_slash]
      rfl
    simp [steps, between, hp]
  · exact ⟨directory.toList, by simp [lead, h, hempty], Or.inl (steps_of_noSlash_end hne h)⟩

theorem steps_join {directory name : String} (hne : directory ≠ "")
    (h : isEntryName name = true) :
    ∃ front, steps (join directory name) = front ++ [name] ∧
      (steps directory = front ∨ steps directory = front ++ ["."]) := by
  obtain ⟨cs, hlead, hsteps⟩ := steps_directory hne
  refine ⟨between cs, steps_of_append_slash h ?_, hsteps⟩
  rw [toList_join, hlead, List.append_assoc, List.singleton_append]

/-! ## Resolution -/

theorem resolve_eq_resolveWith (top : Node) (followLast : Bool) (links : Nat) :
    ∃ follow, resolve top followLast links = resolveWith top followLast follow := by
  cases links with
  | zero => exact ⟨_, rfl⟩
  | succ links => exact ⟨_, rfl⟩

/-- Steps before others are run as they are on their own, and the others are resolved from the place
that they lead to. Links on the way are followed, whether or not one at the end is. -/
def LeadsOn (top : Node) (run : Bool → List String → List String → Except OsError (List String))
    (place xs : List String) : Prop :=
  ∃ r : Except OsError (List String × Nat), run true place xs = r.map Prod.fst ∧
    ∀ followLast y ys, run followLast place (xs ++ y :: ys) =
      r.bind fun p => resolve top followLast p.2 p.1 (y :: ys)

theorem resolveWith_append {top : Node} {links : Nat}
    {follow : Bool → List String → List String → Except OsError (List String)}
    (hr : ∀ followLast, resolve top followLast links = resolveWith top followLast (follow followLast))
    (hf : ∀ place xs, LeadsOn top follow place xs) (place xs : List String) :
    LeadsOn top (fun followLast => resolve top followLast links) place xs := by
  induction xs generalizing place with
  | nil => exact ⟨.ok (place, links), by simp [hr, resolveWith, Except.map], fun _ _ _ => rfl⟩
  | cons step rest ih =>
    simp only [LeadsOn, hr, List.cons_append, resolveWith] at ih ⊢
    split
    · split
      · exact ih place
      · split
        · exact ih place.dropLast
        · split
          · exact ⟨.error .nameTooLong, rfl, fun _ _ _ => rfl⟩
          · split
            · exact ⟨.error .notFound, rfl, fun _ _ _ => rfl⟩
            -- A link in the middle is followed either way, with one link less to go.
            · rename_i path _
              simpa [LeadsOn] using hf (if isAbsolute path then [] else place) (steps path ++ rest)
            · exact ih _
    · exact ⟨.error .notDirectory, rfl, fun _ _ _ => rfl⟩

theorem resolve_append (top : Node) (links : Nat) (place xs : List String) :
    LeadsOn top (fun followLast => resolve top followLast links) place xs := by
  induction links generalizing place xs with
  | zero =>
    refine resolveWith_append (fun _ => rfl) ?_ place xs
    exact fun _ _ => ⟨.error .tooManyLinks, rfl, fun _ _ _ => rfl⟩
  | succ links ih => exact resolveWith_append (fun _ => rfl) ih place xs

theorem resolve_dot {top : Node} {links : Nat} {place found : List String}
    (h : resolve top true links place ["."] = .ok found) : found = place := by
  obtain ⟨follow, hr⟩ := resolve_eq_resolveWith top true links
  rw [hr, resolveWith] at h
  split at h
  · simp only [beq_self_eq_true, if_true, resolveWith] at h
    exact (Except.ok.inj h).symm
  · exact absurd h (by simp)

/-- The path of an entry begins where that of its directory does. -/
theorem startOf_join {here : List String} {directory : String} (name : String)
    (hne : directory ≠ "") : startOf here (join directory name) = startOf here directory := by
  have hhead : (join directory name).toList.head? = directory.toList.head? := by
    have hlist : directory.toList ≠ [] := by simpa using hne
    rw [toList_join, lead]
    split <;> simp [List.head?_append, List.head?_eq_some_head hlist]
  have hsame : isAbsolute (join directory name) = isAbsolute directory := by
    rw [isAbsolute, isAbsolute, hhead]
  rw [startOf, startOf, hsame]

theorem locateFrom_eq_ok {here : List String} {top : Node} {followLast : Bool} {path : String}
    {place : List String} (h : locateFrom here top followLast path = .ok place) :
    path ≠ "" ∧ resolve top followLast linkLimit (startOf here path) (steps path) = .ok place := by
  unfold locateFrom at h
  split at h
  · exact absurd h (by simp)
  · split at h
    · exact absurd h (by simp)
    · rename_i hne
      split at h
      · exact absurd h (by simp)
      · exact ⟨by simpa using hne, h⟩

theorem findFrom_eq_ok {here : List String} {top : Node} {followLast : Bool} {path : String}
    {node : Node} (h : findFrom here top followLast path = .ok node) :
    ∃ place, locateFrom here top followLast path = .ok place ∧ top.at? place = some node := by
  unfold findFrom at h
  cases hp : locateFrom here top followLast path with
  | error e => simp [hp, bind, Except.bind] at h
  | ok place =>
    rw [hp] at h
    refine ⟨place, rfl, ?_⟩
    cases hn : top.at? place with
    | none => simp [hn, bind, Except.bind, throw, throwThe, MonadExceptOf.throw] at h
    | some found => simpa [hn, bind, Except.bind, pure, Except.pure] using h

/-- The path of a name in a directory leads to the place of the directory first, with some links less to
go. -/
theorem resolve_steps_join {here : List String} {top : Node} {directory name : String}
    {place : List String} (hn : isEntryName name = true)
    (hd : locateFrom here top true directory = .ok place) :
    ∃ links, ∀ followLast, resolve top followLast linkLimit (startOf here (join directory name))
        (steps (join directory name)) = resolve top followLast links place [name] := by
  obtain ⟨hne, hd⟩ := locateFrom_eq_ok hd
  obtain ⟨front, hjoin, hdir⟩ := steps_join hne hn
  obtain ⟨r, hr, hrest⟩ := resolve_append top linkLimit (startOf here directory) front
  beta_reduce at hr hrest
  obtain ⟨links, hlinks⟩ : ∃ links, r = .ok (place, links) := by
    rcases hdir with hdir | hdir
    · rw [hdir, hr] at hd
      cases r with
      | error e => exact absurd hd (by simp [Except.map])
      | ok p => exact ⟨p.2, by rw [← Except.ok.inj hd]⟩
    · rw [hdir, hrest] at hd
      cases r with
      | error e => exact absurd hd (by simp [Except.bind])
      | ok p => exact ⟨p.2, by rw [resolve_dot hd]⟩
  refine ⟨links, fun followLast => ?_⟩
  rw [startOf_join name hne, hjoin, hrest, hlinks]
  rfl

end Census.Disk
