import Census.Disk.Path
import Mathlib.Data.List.TakeWhile
/-!
Paths below a directory, put together from the names on the way. The names can be read back from
the path, as no name of an entry has a slash in it.
-/

namespace Census.Disk

/-- The path of the entry that names lead to from a directory. -/
def under (directory : String) (names : List String) : String := names.foldl join directory

/-- What stands before the name of an entry in its path. -/
def lead (directory : String) : List Char :=
  if directory.isEmpty || directory.toList.getLast? == some '/' then directory.toList
  else directory.toList ++ ['/']

/-- Names with a slash before each. -/
def slashed (names : List String) : List Char := names.flatMap fun n => '/' :: n.toList

@[simp] theorem under_nil (directory : String) : under directory [] = directory := rfl

@[simp] theorem under_cons (directory name : String) (names : List String) :
    under directory (name :: names) = under (join directory name) names := rfl

theorem toList_join (directory name : String) :
    (join directory name).toList = lead directory ++ name.toList := by
  unfold join lead
  split
  · simp
  · simp [String.toList_append]

theorem slash_notMem {name : String} (h : isEntryName name = true) : '/' ∉ name.toList := by
  intro hm
  simp [isEntryName, hm] at h

theorem ne_empty_of_isEntryName {name : String} (h : isEntryName name = true) :
    name.toList ≠ [] := by
  intro he
  rw [String.toList_eq_nil_iff] at he
  simp [isEntryName, he] at h

/-- The path of an entry neither is empty nor ends in a slash. -/
theorem lead_join {directory name : String} (h : isEntryName name = true) :
    lead (join directory name) = lead directory ++ name.toList ++ ['/'] := by
  have hne := ne_empty_of_isEntryName h
  have hlast : (join directory name).toList.getLast? ≠ some '/' := by
    rw [toList_join, List.getLast?_append, List.getLast?_eq_some_getLast hne]
    intro hl
    have hslash : name.toList.getLast hne = '/' := by simpa using hl
    exact slash_notMem h (hslash ▸ List.getLast_mem hne)
  have hempty : (join directory name).isEmpty = false := by
    rw [Bool.eq_false_iff, ne_eq, String.isEmpty_iff, ← String.toList_eq_nil_iff, toList_join]
    simp [hne]
  rw [lead, if_neg (by simp [hempty, hlast]), toList_join]

theorem toList_under {directory name : String} {names : List String}
    (h : ∀ n ∈ name :: names, isEntryName n = true) :
    (under directory (name :: names)).toList =
      lead directory ++ (name.toList ++ slashed names) := by
  induction names generalizing directory name with
  | nil => simp [toList_join, slashed]
  | cons m ms ih =>
    have hname : isEntryName name = true := h name List.mem_cons_self
    rw [under_cons, ih fun n hn => h n (List.mem_cons_of_mem _ hn), lead_join hname]
    simp [slashed]

/-- What stands before the first slash can be told from what stands after it. -/
theorem append_slashed_inj {a b : String} {as bs : List String} (ha : '/' ∉ a.toList)
    (hb : '/' ∉ b.toList) (h : a.toList ++ slashed as = b.toList ++ slashed bs) :
    a = b ∧ slashed as = slashed bs := by
  have hfront : ∀ (c : String) (cs : List String), '/' ∉ c.toList →
      (c.toList ++ slashed cs).takeWhile (· != '/') = c.toList := by
    intro c cs hc
    have hall : ∀ x ∈ c.toList, (x != '/') = true := by
      intro x hx
      rw [bne_iff_ne]
      rintro rfl
      exact hc hx
    rw [List.takeWhile_append_of_pos hall]
    cases cs <;> simp [slashed]
  have hab : a.toList = b.toList := by
    rw [← hfront a as ha, h, hfront b bs hb]
  rw [hab] at h
  exact ⟨String.toList_inj.mp hab, List.append_cancel_left h⟩

theorem slashed_inj {as bs : List String} (ha : ∀ n ∈ as, isEntryName n = true)
    (hb : ∀ n ∈ bs, isEntryName n = true) (h : slashed as = slashed bs) : as = bs := by
  induction as generalizing bs with
  | nil =>
    cases bs with
    | nil => rfl
    | cons b bs => simp [slashed] at h
  | cons a as ih =>
    cases bs with
    | nil => simp [slashed] at h
    | cons b bs =>
      have hcut : a.toList ++ slashed as = b.toList ++ slashed bs := by
        simpa [slashed] using h
      obtain ⟨rfl, hrest⟩ := append_slashed_inj (slash_notMem (ha a List.mem_cons_self))
        (slash_notMem (hb b List.mem_cons_self)) hcut
      rw [ih (fun n hn => ha n (List.mem_cons_of_mem _ hn))
        (fun n hn => hb n (List.mem_cons_of_mem _ hn)) hrest]

/-- Different names lead to different paths. -/
theorem under_inj {directory : String} {as bs : List String} (hne : as ≠ []) (hne' : bs ≠ [])
    (ha : ∀ n ∈ as, isEntryName n = true) (hb : ∀ n ∈ bs, isEntryName n = true)
    (h : under directory as = under directory bs) : as = bs := by
  obtain ⟨a, as, rfl⟩ := List.exists_cons_of_ne_nil hne
  obtain ⟨b, bs, rfl⟩ := List.exists_cons_of_ne_nil hne'
  have hlist := congrArg String.toList h
  rw [toList_under ha, toList_under hb] at hlist
  obtain ⟨rfl, hrest⟩ := append_slashed_inj (slash_notMem (ha a List.mem_cons_self))
    (slash_notMem (hb b List.mem_cons_self)) (List.append_cancel_left hlist)
  rw [slashed_inj (fun n hn => ha n (List.mem_cons_of_mem _ hn))
    (fun n hn => hb n (List.mem_cons_of_mem _ hn)) hrest]

end Census.Disk
