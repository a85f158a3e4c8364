import Census.Proofs.Disk.Listing
import Census.Proofs.Except
/-!
What stands at the path of an entry. A directory of a tree that can be found can be listed, and whether
the path of an entry of it can be asked for is a matter of the texts alone: it fails in one tree as
it does in another.
-/

namespace Census.Disk

variable {top : Node} {here : List String} {directory name : String}

/-- A directory can be listed, and has an entry of a name. -/
def Lists (h : Host) (directory name : String) : Prop :=
  ∃ names, h.list directory = .ok names ∧ name ∈ names

/-- What is answered about the path of an entry. Some paths cannot be asked about, whatever stands
there. -/
def answerAt {α : Type} (path name : String) (a : α) : Except OsError α :=
  if path.toList.contains '\x00' then .error .nulInPath
  else if pathLimit ≤ path.utf8ByteSize || nameLimit < name.utf8ByteSize then .error .nameTooLong
  else .ok a

theorem map_answerAt {α β : Type} (path name : String) (f : α → β) (a : α) :
    (answerAt path name a).map f = answerAt path name (f a) := by
  unfold answerAt
  split
  · rfl
  · split <;> rfl

theorem answerAt_eq_ok {α : Type} {path : String} {a b : α} (h : answerAt path name a = .ok b) :
    a = b := by
  unfold answerAt at h
  split at h
  · simp at h
  · split at h
    · simp at h
    · exact Except.ok.inj h

/-- The same paths can be asked about, whatever stands there. -/
theorem answerAt_of_ok {α β : Type} {path : String} {a b : α} (h : answerAt path name a = .ok b)
    (c : β) : answerAt path name c = .ok c := by
  rw [← map_answerAt path name (fun _ : α => c) a, h]
  rfl

/-- The same paths fail, whatever stands there. -/
theorem answerAt_eq_error {α β : Type} {path : String} {a : α} {e : OsError}
    (h : answerAt path name a = .error e) (b : β) : answerAt path name b = .error e := by
  rw [← map_answerAt path name (fun _ : α => b) a, h]
  rfl

theorem at?_append (n : Node) (place more : List String) :
    n.at? (place ++ more) = (n.at? place).bind (·.at? more) := by
  induction place generalizing n with
  | nil => rfl
  | cons name place ih =>
    rw [List.cons_append, Node.at?, Node.at?]
    cases n.entry? name with
    | none => rfl
    | some inner => exact ih inner

theorem resolve_entry {followLast : Bool} {links : Nat} {place : List String}
    {entries : List (String × Node)} {node : Node} (hn : isEntryName name = true)
    (hd : top.at? place = some (.directory entries)) (hl : entries.lookup name = some node)
    (hk : followLast = false ∨ node.kind ≠ .link) :
    resolve top followLast links place [name] =
      if nameLimit < name.utf8ByteSize then .error .nameTooLong else .ok (place ++ [name]) := by
  obtain ⟨follow, hr⟩ := resolve_eq_resolveWith top followLast links
  simp only [isEntryName, Bool.and_eq_true, bne_iff_ne, ne_eq] at hn
  rw [hr, resolveWith, hd]
  simp only [beq_iff_eq, hn, if_false, hl, List.isEmpty_nil, Bool.true_and]
  split
  · rfl
  · cases node with
    | link path =>
      have hfollow : followLast = false := by simpa [Node.kind] using hk
      simp [hfollow]
    | file bytes => rfl
    | pipe => rfl
    | directory inner => rfl

theorem join_ne_empty (hn : isEntryName name = true) : (join directory name).isEmpty = false := by
  rw [Bool.eq_false_iff, ne_eq, String.isEmpty_iff, ← String.toList_eq_nil_iff, toList_join]
  simp [ne_empty_of_isEntryName hn]

/-- The place of an entry is that of its directory and its name, up to what paths allow. -/
theorem locateFrom_entry {followLast : Bool} {place : List String} {entries : List (String × Node)}
    {node : Node} (hn : isEntryName name = true) (hplace : locateFrom here top true directory = .ok place)
    (hd : top.at? place = some (.directory entries)) (hl : entries.lookup name = some node)
    (hk : followLast = false ∨ node.kind ≠ .link) :
    locateFrom here top followLast (join directory name) =
      answerAt (join directory name) name (place ++ [name]) := by
  obtain ⟨links, hlinks⟩ := resolve_steps_join hn hplace
  rw [locateFrom, answerAt, join_ne_empty hn, hlinks, resolve_entry hn hd hl hk]
  by_cases hnul : '\x00' ∈ (join directory name).toList
  · simp [hnul]
  · by_cases hlong : pathLimit ≤ (join directory name).utf8ByteSize
    · simp [hnul, hlong]
    · by_cases hname : nameLimit < name.utf8ByteSize <;> simp [hnul, hlong, hname]

theorem findFrom_entry {followLast : Bool} {place : List String} {entries : List (String × Node)}
    {node : Node} (hn : isEntryName name = true) (hplace : locateFrom here top true directory = .ok place)
    (hd : top.at? place = some (.directory entries)) (hl : entries.lookup name = some node)
    (hk : followLast = false ∨ node.kind ≠ .link) :
    findFrom here top followLast (join directory name) = answerAt (join directory name) name node := by
  have hat : top.at? (place ++ [name]) = some node := by
    simp [at?_append, hd, Node.at?, Node.entry?, hl]
  rw [findFrom, locateFrom_entry hn hplace hd hl hk,
    ← map_answerAt _ _ (fun _ => node) (place ++ [name])]
  cases ha : answerAt (join directory name) name (place ++ [name]) with
  | error e => rfl
  | ok found =>
    obtain rfl := answerAt_eq_ok ha
    simp [hat]

/-- The node that stands in a directory for a name that it lists. -/
theorem exists_node_of_lists (hl : Lists (top.hostFrom here) directory name) :
    isEntryName name = true ∧ ∃ place entries node, locateFrom here top true directory = .ok place ∧
      top.at? place = some (.directory entries) ∧ entries.lookup name = some node := by
  obtain ⟨names, hlist, hm⟩ := hl
  obtain ⟨entries, hfind, rfl⟩ := listFrom_eq_ok hlist
  obtain ⟨place, hplace, hd⟩ := findFrom_eq_ok hfind
  simp only [Node.names, entryNames, List.mem_eraseDups, List.mem_filter, List.mem_map] at hm
  obtain ⟨⟨inner, hmem, hkey⟩, hn⟩ := hm
  obtain ⟨node, hnode⟩ : ∃ node, entries.lookup name = some node := by
    rw [← Option.isSome_iff_exists, List.lookup_isSome_iff]
    exact ⟨inner, hmem, by simp [hkey]⟩
  exact ⟨hn, place, entries, node, hplace, hd, hnode⟩

/-- What is said about an entry is the kind of its node. -/
theorem kind_entry {place : List String} {entries : List (String × Node)} {node : Node}
    (hn : isEntryName name = true) (hplace : locateFrom here top true directory = .ok place)
    (hd : top.at? place = some (.directory entries)) (hl : entries.lookup name = some node) :
    (top.hostFrom here).kind (join directory name) =
      answerAt (join directory name) name node.kind := by
  rw [← map_answerAt _ _ Node.kind node, ← findFrom_entry hn hplace hd hl (Or.inl rfl)]
  rfl

/-- What a directory lists can be found, up to what paths allow, and there is more behind it than it
shows itself only if it is a link. -/
theorem exists_kind_of_lists (hl : Lists (top.hostFrom here) directory name) :
    ∃ kind, (top.hostFrom here).kind (join directory name) =
        answerAt (join directory name) name kind ∧
      (kind ≠ .link → (top.hostFrom here).target (join directory name) =
        answerAt (join directory name) name kind) := by
  obtain ⟨hn, place, entries, node, hplace, hd, hnode⟩ := exists_node_of_lists hl
  refine ⟨node.kind, kind_entry hn hplace hd hnode, fun hk => ?_⟩
  rw [← map_answerAt _ _ Node.kind node, ← findFrom_entry hn hplace hd hnode (Or.inr hk)]
  rfl

theorem target_of_kind {kind : EntryKind} (hl : Lists (top.hostFrom here) directory name)
    (hk : (top.hostFrom here).kind (join directory name) = .ok kind) (hne : kind ≠ .link) :
    (top.hostFrom here).target (join directory name) = .ok kind := by
  obtain ⟨found, hkind, htarget⟩ := exists_kind_of_lists hl
  obtain rfl := answerAt_eq_ok (hkind.symm.trans hk)
  exact (htarget hne).trans (hkind.symm.trans hk)

/-- A directory that can be found can be listed. -/
theorem list_of_directory (hd : (top.hostFrom here).target directory = .ok .directory) :
    ∃ names, (top.hostFrom here).list directory = .ok names := by
  change Node.kind <$> findFrom here top true directory = .ok .directory at hd
  cases hf : findFrom here top true directory with
  | error e => simp [hf] at hd
  | ok node =>
    cases node with
    | directory entries => exact ⟨_, by simp [Node.hostFrom, listFrom, hf]; rfl⟩
    | file bytes => simp [hf, Node.kind] at hd
    | pipe => simp [hf, Node.kind] at hd
    | link path => simp [hf, Node.kind] at hd

end Census.Disk
