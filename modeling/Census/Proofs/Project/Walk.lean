import Census.Project.Walk
import Census.Proofs.Disk.Listing
import Census.Proofs.Project.Logged
import Census.Proofs.Text.ByteOrder
/-!
What a walk finds. The scripts below a directory are told by the names that lead to them, apart from
the errors that may stop a walk. A walk that is not stopped finds exactly these, in the order of the
names, and the names themselves are ordered by their bytes.
-/

namespace Census

open Census.Disk (EntryKind Host isEntryName join under)
open Census.Text (bytes)

/-! ## Names and ignored texts -/

theorem occursIn_iff {part text : List Char} : occursIn part text = true ↔ part <:+: text := by
  induction text with
  | nil => simp [occursIn]
  | cons c cs ih =>
    rw [occursIn, Bool.or_eq_true, List.isPrefixOf_iff_prefix, ih, List.infix_cons_iff]

theorem isIgnored_iff {ignored : List String} {path : String} :
    isIgnored ignored path = true ↔ ∃ part ∈ ignored, part.toList <:+: path.toList := by
  simp [isIgnored, occursIn_iff]

theorem isScriptName_iff {name : String} :
    isScriptName name = true ↔ ∃ ending ∈ scriptEndings, ending.toList <:+ name.toList := by
  simp [isScriptName]

theorem insertName_perm (name : String) (names : List String) :
    (insertName name names).Perm (name :: names) := by
  induction names with
  | nil => exact List.Perm.refl _
  | cons n ns ih =>
    rw [insertName]
    split
    · exact (ih.cons n).trans (List.Perm.swap name n ns)
    · exact List.Perm.refl _

theorem insertName_pairwise {name : String} {names : List String} (hnew : name ∉ names)
    (hs : names.Pairwise (· < ·)) : (insertName name names).Pairwise (· < ·) := by
  induction names with
  | nil => exact List.pairwise_singleton _ _
  | cons n ns ih =>
    obtain ⟨hne, hnew⟩ : name ≠ n ∧ name ∉ ns := by simpa using hnew
    obtain ⟨hn, hns⟩ := List.pairwise_cons.mp hs
    rw [insertName]
    by_cases hlt : n < name
    · rw [if_pos hlt, List.pairwise_cons]
      refine ⟨?_, ih hnew hns⟩
      intro m hm
      rcases List.mem_cons.mp ((insertName_perm name ns).mem_iff.mp hm) with rfl | hm
      · exact hlt
      · exact hn m hm
    · have hgt : name < n := lt_of_le_of_ne (not_lt.mp hlt) hne
      rw [if_neg hlt, List.pairwise_cons]
      refine ⟨?_, hs⟩
      intro m hm
      rcases List.mem_cons.mp hm with rfl | hm
      · exact hgt
      · exact hgt.trans (hn m hm)

theorem sortNames_perm (names : List String) : (sortNames names).Perm names := by
  induction names with
  | nil => exact List.Perm.refl _
  | cons n ns ih => exact (insertName_perm n _).trans (ih.cons n)

theorem sortNames_pairwise {names : List String} (h : names.Nodup) :
    (sortNames names).Pairwise (· < ·) := by
  induction names with
  | nil => exact List.Pairwise.nil
  | cons n ns ih =>
    obtain ⟨hn, hns⟩ := List.nodup_cons.mp h
    exact insertName_pairwise (fun hm => hn ((sortNames_perm ns).mem_iff.mp hm)) (ih hns)

/-! ## The names that lead to scripts -/

/-- What leads on from the path of an entry to the scripts that it is or has below it. -/
def entryRests (h : Host) (ignored : List String) (below : String → List (List String))
    (path name : String) : List (List String) :=
  if isIgnored ignored path then []
  else
    match h.kind path with
    | .ok .directory => below path
    | .ok .file => if isScriptName name then [[]] else []
    | _ => []

/-- What `walkEntry` finds, as names below the directory. Nothing is found where it fails. -/
def entryScripts (h : Host) (ignored : List String) (below : String → List (List String))
    (directory name : String) : List (List String) :=
  (entryRests h ignored below (join directory name) name).map (name :: ·)

/-- What `walkDirectory` finds, as names below the directory. -/
def scriptNames (h : Host) (ignored : List String) : Nat → String → List (List String)
  | 0, _ => []
  | depth + 1, directory =>
    (sortNames ((h.list directory).toOption.getD [])).flatMap
      (entryScripts h ignored (scriptNames h ignored depth) directory)

variable {h : Host} {ignored : List String}

theorem mem_entryRests {below : String → List (List String)} {path name : String}
    {rest : List String} :
    rest ∈ entryRests h ignored below path name ↔
      isIgnored ignored path = false ∧
        (h.kind path = .ok .directory ∧ rest ∈ below path ∨
          h.kind path = .ok .file ∧ isScriptName name = true ∧ rest = []) := by
  unfold entryRests
  by_cases hi : isIgnored ignored path = true
  · simp [hi]
  · cases hk : h.kind path with
    | error e => simp [hi]
    | ok kind =>
      cases kind with
      | directory => simp [hi]
      | file => by_cases hs : isScriptName name = true <;> simp [hi, hs]
      | link => simp [hi]
      | pipe => simp [hi]

/-! ## What a walk that is not stopped has done -/

theorem walkEntry_eq_ok {below : String → Logged (List String)}
    {names : String → List (List String)} {directory name : String} {found : List String}
    (hb : ∀ path files, (below path).result = .ok files → files = (names path).map (under path))
    (hw : (walkEntry h ignored below directory name).result = .ok found) :
    found = (entryScripts h ignored names directory name).map (under directory) := by
  simp only [walkEntry] at hw
  simp only [entryScripts, entryRests]
  by_cases hi : isIgnored ignored (join directory name) = true
  · simpa [hi, eq_comm] using hw
  · cases hk : h.kind (join directory name) with
    | error e => simp [hi, hk] at hw
    | ok kind =>
      cases kind with
      | directory =>
        have hfound : found = (names (join directory name)).map (under (join directory name)) :=
          hb _ _ (by simpa [hi, hk] using hw)
        simp [hi, hfound, Function.comp_def]
      | file =>
        have hfound : (if isScriptName name then [join directory name] else []) = found := by
          simpa [hi, hk, Logged.pure] using hw
        rw [← hfound]
        by_cases hs : isScriptName name = true <;> simp [hi, hs]
      | link => simpa [hi, hk, eq_comm] using hw
      | pipe => simpa [hi, hk, eq_comm, Logged.pure] using hw

theorem walkDirectory_of_error {directory : String} {e : Disk.OsError} (depth : Nat)
    (hl : h.list directory = .error e) :
    (walkDirectory h ignored depth directory).result = .error (.directory directory e) := by
  simp [walkDirectory, hl]

/-- A walk that must not go any deeper is stopped. -/
theorem walkDirectory_zero_ne_ok {directory : String} {files : List String} :
    (walkDirectory h ignored 0 directory).result ≠ .ok files := by
  cases hl : h.list directory <;> simp [walkDirectory, hl]

theorem walkDirectory_succ_eq_ok {depth : Nat} {directory : String} {files : List String}
    (hw : (walkDirectory h ignored (depth + 1) directory).result = .ok files) :
    ∃ names found, h.list directory = .ok names ∧ files = found.flatten ∧
      (Logged.each (walkEntry h ignored (walkDirectory h ignored depth) directory)
        (sortNames names)).result = .ok found := by
  unfold walkDirectory at hw
  cases hl : h.list directory with
  | error e => simp [hl] at hw
  | ok names =>
    simp only [hl] at hw
    obtain ⟨found, hfound, hflat⟩ := Logged.bind_result_eq_ok.mp hw
    exact ⟨names, found, rfl, (Except.ok.inj hflat).symm, hfound⟩

/-- A walk that is not stopped finds the scripts in the order of their names. -/
theorem walkDirectory_eq_ok {depth : Nat} {directory : String} {files : List String}
    (hw : (walkDirectory h ignored depth directory).result = .ok files) :
    files = (scriptNames h ignored depth directory).map (under directory) := by
  induction depth generalizing directory files with
  | zero => exact absurd hw walkDirectory_zero_ne_ok
  | succ depth ih =>
    obtain ⟨names, found, hl, rfl, hfound⟩ := walkDirectory_succ_eq_ok hw
    have hmap : found = (sortNames names).map fun name =>
        (entryScripts h ignored (scriptNames h ignored depth) directory name).map
          (under directory) := by
      rw [← List.forall₂_eq_eq_eq, List.forall₂_map_right_iff]
      refine ((Logged.each_eq_ok.mp hfound).imp ?_).flip
      intro name f hf
      exact walkEntry_eq_ok (fun _ _ => ih) hf
    rw [hmap, scriptNames, hl, List.map_flatMap, List.flatMap_def]
    rfl

/-- A walk that is not stopped has walked every directory that it met. -/
theorem walkDirectory_entry_ok {depth : Nat} {directory name : String} {files names : List String}
    (hw : (walkDirectory h ignored (depth + 1) directory).result = .ok files)
    (hl : h.list directory = .ok names) (hn : name ∈ names)
    (hi : isIgnored ignored (join directory name) = false)
    (hk : h.kind (join directory name) = .ok .directory) :
    ∃ found, (walkDirectory h ignored depth (join directory name)).result = .ok found := by
  obtain ⟨names', found, hl', -, hfound⟩ := walkDirectory_succ_eq_ok hw
  obtain rfl : names = names' := Except.ok.inj (hl.symm.trans hl')
  have hmem : name ∈ sortNames names := (sortNames_perm names).mem_iff.mpr hn
  obtain ⟨f, -, hf⟩ := Logged.exists_ok_of_mem hfound hmem
  exact ⟨f, by simpa [walkEntry, hi, hk] using hf⟩

/-! ## Order -/

/-- Of two lists of names the one comes first that has the smaller name, by its bytes, where they first
differ, or that ends there. -/
def Before (as bs : List String) : Prop := as.map bytes < bs.map bytes

theorem before_cons_of_lt {a b : String} (hab : a < b) (as bs : List String) :
    Before (a :: as) (b :: bs) :=
  List.cons_lt_cons_iff.mpr (Or.inl (Text.bytes_lt_bytes_iff.mpr hab))

theorem before_cons {as bs : List String} (hab : Before as bs) (name : String) :
    Before (name :: as) (name :: bs) :=
  List.cons_lt_cons_iff.mpr (Or.inr ⟨rfl, hab⟩)

theorem not_before_self (as : List String) : ¬ Before as as := List.lt_irrefl _

theorem entryRests_pairwise {below : String → List (List String)} {path name : String}
    (hb : (below path).Pairwise Before) : (entryRests h ignored below path name).Pairwise Before := by
  unfold entryRests
  split
  · exact List.Pairwise.nil
  · split
    · exact hb
    · split <;> simp
    · exact List.Pairwise.nil

theorem scriptNames_pairwise (depth : Nat) (directory : String) :
    (scriptNames h ignored depth directory).Pairwise Before := by
  induction depth generalizing directory with
  | zero => exact List.Pairwise.nil
  | succ depth ih =>
    have hnodup : ((h.list directory).toOption.getD []).Nodup := by
      cases hl : h.list directory with
      | error e => exact List.nodup_nil
      | ok names => exact h.list_nodup directory names hl
    rw [scriptNames, List.pairwise_flatMap]
    constructor
    · intro name _
      rw [entryScripts, List.pairwise_map]
      exact (entryRests_pairwise (ih _)).imp fun hab => before_cons hab name
    -- What is below different entries already differs at the names of the entries.
    · refine (sortNames_pairwise hnodup).imp ?_
      intro a b hab as has bs hbs
      obtain ⟨as, -, rfl⟩ := List.mem_map.mp has
      obtain ⟨bs, -, rfl⟩ := List.mem_map.mp hbs
      exact before_cons_of_lt hab as bs

/-! ## Membership -/

/-- Names that lead from a directory to a script: through directories that are no links, to a regular
file, past no path with an ignored text in it. -/
structure LeadsToScript (h : Host) (ignored : List String) (directory : String)
    (names : List String) : Prop where
  nonempty : names ≠ []
  entries : ∀ n ∈ names, isEntryName n = true
  directories : ∀ i, 0 < i → i < names.length →
    h.kind (under directory (names.take i)) = .ok .directory
  file : h.kind (under directory names) = .ok .file
  ending : ∃ last ∈ names.getLast?, ∃ ending ∈ scriptEndings, ending.toList <:+ last.toList
  notIgnored : ∀ i, 0 < i → i ≤ names.length → ∀ part ∈ ignored,
    ¬ part.toList <:+: (under directory (names.take i)).toList

theorem isIgnored_eq_false_iff {path : String} :
    isIgnored ignored path = false ↔ ∀ part ∈ ignored, ¬ part.toList <:+: path.toList := by
  rw [Bool.eq_false_iff, ne_eq, isIgnored_iff]
  simp only [not_exists, not_and]

theorem leadsToScript_singleton {directory name : String} :
    LeadsToScript h ignored directory [name] ↔
      isEntryName name = true ∧ isIgnored ignored (join directory name) = false ∧
        h.kind (join directory name) = .ok .file ∧ isScriptName name = true := by
  rw [isIgnored_eq_false_iff, isScriptName_iff]
  constructor
  · intro hs
    obtain ⟨last, hlast, hending⟩ := hs.ending
    obtain rfl : name = last := by simpa using hlast
    exact ⟨hs.entries name List.mem_cons_self, hs.notIgnored 1 (by omega) (by simp), hs.file, hending⟩
  · rintro ⟨hentry, hignored, hfile, hending⟩
    refine ⟨by simp, by simpa using hentry, ?_, hfile, ⟨name, by simp, hending⟩, ?_⟩
    · intro i hpos hlt
      simp only [List.length_singleton] at hlt
      omega
    · intro i hpos hle
      simp only [List.length_singleton] at hle
      obtain rfl : i = 1 := by omega
      exact hignored

theorem leadsToScript_cons {directory name : String} {names : List String} (hne : names ≠ []) :
    LeadsToScript h ignored directory (name :: names) ↔
      isEntryName name = true ∧ isIgnored ignored (join directory name) = false ∧
        h.kind (join directory name) = .ok .directory ∧
        LeadsToScript h ignored (join directory name) names := by
  have hpos : 0 < names.length := List.length_pos_of_ne_nil hne
  rw [isIgnored_eq_false_iff]
  constructor
  · intro hs
    refine ⟨hs.entries name List.mem_cons_self, hs.notIgnored 1 (by omega) (by simp),
      hs.directories 1 (by omega) (by simpa using hpos), hne, ?_, ?_, hs.file, ?_, ?_⟩
    · intro n hn
      exact hs.entries n (List.mem_cons_of_mem _ hn)
    · intro i _ hlt
      exact hs.directories (i + 1) (by omega) (by simpa using hlt)
    · simpa [List.getLast?_cons, List.getLast?_eq_some_getLast hne] using hs.ending
    · intro i _ hle
      exact hs.notIgnored (i + 1) (by omega) (by simpa using hle)
  · rintro ⟨hentry, hignored, hkind, hs⟩
    refine ⟨by simp, ?_, ?_, hs.file, ?_, ?_⟩
    · intro n hn
      rcases List.mem_cons.mp hn with rfl | hn
      · exact hentry
      · exact hs.entries n hn
    · intro i hi hlt
      cases i with
      | zero => omega
      | succ i =>
        by_cases h0 : i = 0
        · subst h0
          exact hkind
        · exact hs.directories i (by omega) (by simpa using hlt)
    · simpa [List.getLast?_cons, List.getLast?_eq_some_getLast hne] using hs.ending
    · intro i hi hle
      cases i with
      | zero => omega
      | succ i =>
        by_cases h0 : i = 0
        · subst h0
          exact hignored
        · exact hs.notIgnored i (by omega) (by simpa using hle)

theorem cons_mem_scriptNames {depth : Nat} {directory name : String} {rest : List String} :
    name :: rest ∈ scriptNames h ignored (depth + 1) directory ↔
      (∃ names, h.list directory = .ok names ∧ name ∈ names) ∧
        isIgnored ignored (join directory name) = false ∧
        (h.kind (join directory name) = .ok .directory ∧
            rest ∈ scriptNames h ignored depth (join directory name) ∨
          h.kind (join directory name) = .ok .file ∧ isScriptName name = true ∧ rest = []) := by
  rw [← mem_entryRests, scriptNames, List.mem_flatMap]
  cases hl : h.list directory with
  | error e => simp [sortNames, Except.toOption]
  | ok names => simp [entryScripts, Except.toOption, (sortNames_perm names).mem_iff]

/-- Soundness: whatever is found is a script that names lead to. -/
theorem leadsToScript_of_mem {depth : Nat} {directory : String} {names : List String}
    (hm : names ∈ scriptNames h ignored depth directory) :
    LeadsToScript h ignored directory names := by
  induction depth generalizing directory names with
  | zero => exact absurd hm List.not_mem_nil
  | succ depth ih =>
    cases names with
    | nil =>
      obtain ⟨name, -, hm⟩ := List.mem_flatMap.mp hm
      simp [entryScripts] at hm
    | cons name rest =>
      obtain ⟨⟨names, hl, hn⟩, hi, hk⟩ := cons_mem_scriptNames.mp hm
      have hentry : isEntryName name = true := h.list_isEntryName _ _ hl name hn
      rcases hk with ⟨hk, hrest⟩ | ⟨hk, hs, rfl⟩
      · have hlead := ih hrest
        exact (leadsToScript_cons hlead.nonempty).mpr ⟨hentry, hi, hk, hlead⟩
      · exact leadsToScript_singleton.mpr ⟨hentry, hi, hk, hs⟩

/-- The path of a script tells the names that lead to it. -/
theorem LeadsToScript.eq_of_under_eq {root : String} {as bs : List String}
    (ha : LeadsToScript h ignored root as) (hb : LeadsToScript h ignored root bs)
    (heq : under root as = under root bs) : as = bs :=
  Disk.under_inj ha.nonempty hb.nonempty ha.entries hb.entries heq

theorem walk_nodup {root : String} {files : List String}
    (hw : (walk h root ignored).result = .ok files) : files.Nodup := by
  have hpairwise : (scriptNames h ignored Disk.pathLimit root).Pairwise Before :=
    scriptNames_pairwise _ _
  rw [walkDirectory_eq_ok hw, List.Nodup, List.pairwise_map]
  refine List.Pairwise.imp_of_mem ?_ hpairwise
  intro as bs has hbs hab heq
  obtain rfl := (leadsToScript_of_mem has).eq_of_under_eq (leadsToScript_of_mem hbs) heq
  exact not_before_self as hab

/-- Scripts in directories whose names sort otherwise than the paths, beside a link, a pipe and an ignored
directory. -/
def sampleTree : Disk.Node := .directory [
  ("a!", .directory [("x.mjs", .file [])]),
  ("a", .directory [("y.js", .file []), ("z.js", .link "y.js"), ("notes.txt", .file [])]),
  ("skip", .directory [("x.js", .file [])]),
  ("x.jsm", .pipe)]

end Census
