import Census.Proofs.Disk.Entry
/-!
Paths that lead to the same place. A place has many paths: links lead to it, `.` and `..` make detours, and
slashes may be doubled. What a directory lists and what its entries are is a matter of its place, and
entries of one name in one place are in one place again.
-/

namespace Census.Disk

variable {here : List String} {top : Node} {directory directory' name : String}

/-- Two paths lead to the same place, links at their ends followed. -/
def SamePlace (here : List String) (top : Node) (path path' : String) : Prop :=
  ∃ place, locateFrom here top true path = .ok place ∧ locateFrom here top true path' = .ok place

/-- The directory that a listing is of. -/
theorem exists_place_of_list {names : List String}
    (hl : (top.hostFrom here).list directory = .ok names) :
    ∃ place entries, locateFrom here top true directory = .ok place ∧
      top.at? place = some (.directory entries) ∧ names = Node.names (.directory entries) := by
  obtain ⟨entries, hfind, hnames⟩ := listFrom_eq_ok hl
  obtain ⟨place, hplace, hentries⟩ := findFrom_eq_ok hfind
  exact ⟨place, entries, hplace, hentries, hnames⟩

theorem SamePlace.list_eq {names names' : List String} (hs : SamePlace here top directory directory')
    (hl : (top.hostFrom here).list directory = .ok names)
    (hl' : (top.hostFrom here).list directory' = .ok names') : names = names' := by
  obtain ⟨shared, hshared, hshared'⟩ := hs
  obtain ⟨place, entries, hplace, hentries, rfl⟩ := exists_place_of_list hl
  obtain ⟨place', entries', hplace', hentries', rfl⟩ := exists_place_of_list hl'
  obtain rfl : place = shared := Except.ok.inj (hplace.symm.trans hshared)
  obtain rfl : place' = place := Except.ok.inj (hplace'.symm.trans hshared')
  have hsame := Option.some.inj (hentries.symm.trans hentries')
  rw [hsame]

/-- Entries of one name in one place are the same node. -/
theorem SamePlace.exists_node (hs : SamePlace here top directory directory')
    (hl : Lists (top.hostFrom here) directory name) :
    isEntryName name = true ∧ ∃ place entries node, locateFrom here top true directory = .ok place ∧
      locateFrom here top true directory' = .ok place ∧
      top.at? place = some (.directory entries) ∧ entries.lookup name = some node := by
  obtain ⟨hn, place, entries, node, hplace, hentries, hnode⟩ := exists_node_of_lists hl
  obtain ⟨shared, hshared, hshared'⟩ := hs
  obtain rfl : place = shared := Except.ok.inj (hplace.symm.trans hshared)
  exact ⟨hn, place, entries, node, hplace, hshared', hentries, hnode⟩

theorem SamePlace.kind_eq {kind kind' : EntryKind} (hs : SamePlace here top directory directory')
    (hl : Lists (top.hostFrom here) directory name)
    (hk : (top.hostFrom here).kind (join directory name) = .ok kind)
    (hk' : (top.hostFrom here).kind (join directory' name) = .ok kind') : kind = kind' := by
  obtain ⟨hn, place, entries, node, hplace, hplace', hentries, hnode⟩ := hs.exists_node hl
  have hkind := answerAt_eq_ok ((kind_entry hn hplace hentries hnode).symm.trans hk)
  have hkind' := answerAt_eq_ok ((kind_entry hn hplace' hentries hnode).symm.trans hk')
  exact hkind.symm.trans hkind'

/-- Inner directories of one name in one place are in one place. -/
theorem SamePlace.join (hs : SamePlace here top directory directory')
    (hl : Lists (top.hostFrom here) directory name)
    (hk : (top.hostFrom here).kind (Disk.join directory name) = .ok .directory)
    (hk' : (top.hostFrom here).kind (Disk.join directory' name) = .ok .directory) :
    SamePlace here top (Disk.join directory name) (Disk.join directory' name) := by
  obtain ⟨hn, place, entries, node, hplace, hplace', hentries, hnode⟩ := hs.exists_node hl
  rw [kind_entry hn hplace hentries hnode] at hk
  rw [kind_entry hn hplace' hentries hnode] at hk'
  have hdirectory : node.kind ≠ .link := by
    rw [answerAt_eq_ok hk]
    decide
  refine ⟨place ++ [name], ?_, ?_⟩
  · rw [locateFrom_entry hn hplace hentries hnode (Or.inr hdirectory)]
    exact answerAt_of_ok hk _
  · rw [locateFrom_entry hn hplace' hentries hnode (Or.inr hdirectory)]
    exact answerAt_of_ok hk' _

end Census.Disk
