/-!
Paths as texts. A path is taken apart at its slashes; empty pieces between slashes do not count, and a
slash at the end asks for a directory.
-/

namespace Census.Disk

def pieces : List Char → List (List Char)
  | [] => [[]]
  | c :: cs =>
    if c == '/' then [] :: pieces cs
    else
      match pieces cs with
      | [] => [[c]]
      | p :: ps => (c :: p) :: ps

/-- The names that a path goes through. A slash at its end counts as one more step to the place
itself. -/
def steps (path : String) : List String :=
  let ps := pieces path.toList
  let last := ps.getLast?.getD []
  (ps.dropLast.filter (!·.isEmpty)).map String.ofList ++
    [if last.isEmpty then "." else String.ofList last]

def isAbsolute (path : String) : Bool := path.toList.head? == some '/'

def join (directory name : String) : String :=
  if directory.isEmpty || directory.toList.getLast? == some '/' then directory ++ name
  else directory ++ "/" ++ name

/-- A text that can name an entry of a directory. -/
def isEntryName (name : String) : Bool :=
  !name.isEmpty && name != "." && name != ".." && !name.toList.contains '/'

/-- The texts of a list that can name an entry, each once. -/
def entryNames (names : List String) : List String := (names.filter isEntryName).eraseDups

theorem nodup_eraseDups (names : List String) : names.eraseDups.Nodup := by
  induction h : names.length using Nat.strongRecOn generalizing names with
  | _ n ih =>
    cases names with
    | nil => simp
    | cons a as =>
      have shorter : (as.filter fun b => !b == a).length < n := by
        have := List.length_filter_le (fun b => !b == a) as
        simp only [List.length_cons] at h
        omega
      rw [List.eraseDups_cons, List.nodup_cons]
      exact ⟨by simp, ih _ shorter _ rfl⟩

theorem entryNames_nodup (names : List String) : (entryNames names).Nodup := nodup_eraseDups _

theorem isEntryName_of_mem_entryNames {names : List String} :
    ∀ n ∈ entryNames names, isEntryName n = true := by
  intro n hn
  simp only [entryNames, List.mem_eraseDups, List.mem_filter] at hn
  exact hn.2

/-- Names are at most this many bytes long. -/
def nameLimit : Nat := 255

/-- Paths are shorter than this many bytes. -/
def pathLimit : Nat := 4096

end Census.Disk
