import Census.Proofs.Disk.Entry
import Census.Proofs.Project.Report
/-!
Two file systems side by side. A walk looks at nothing but the names and kinds of the entries that it
does not ignore, in directories that it gets to without a link, and a file is scanned by its bytes
alone. So what two file systems have in common they report in common, whatever else is different.
-/

namespace Census

open Census.Disk (EntryKind Host Lists OsError join)

variable {h h' : Host} {ignored : List String} {root directory name : String}

/-! ## What a walk looks at -/

/-- The directories that a walk gets to: through no link, and past no path with an ignored text in it. -/
inductive Reaches (h : Host) (ignored : List String) : String → String → Prop where
  | here (directory : String) : Reaches h ignored directory directory
  | inside {directory name goal : String} : Lists h directory name →
      isIgnored ignored (join directory name) = false →
      h.kind (join directory name) = .ok .directory →
      Reaches h ignored (join directory name) goal → Reaches h ignored directory goal

/-- A directory has the same entries in two file systems, each of the same kind, apart from ignored ones. -/
def SameEntries (h h' : Host) (ignored : List String) (directory : String) : Prop :=
  ∀ name, isIgnored ignored (join directory name) = false →
    (Lists h directory name ↔ Lists h' directory name) ∧
      (Lists h directory name → ∀ kind,
        h.kind (join directory name) = .ok kind ↔ h'.kind (join directory name) = .ok kind)

theorem lists_iff {names : List String} (hl : h.list directory = .ok names) :
    Lists h directory name ↔ name ∈ names := by
  simp [Disk.Lists, hl]

/-- What cannot be listed or looked at in a directory of one file system cannot be in the other. -/
structure SameFailures (h h' : Host) (ignored : List String) (directory : String) : Prop where
  list : ∀ e, h.list directory = .error e ↔ h'.list directory = .error e
  kind : ∀ name, isIgnored ignored (join directory name) = false → Lists h directory name →
    ∀ e, h.kind (join directory name) = .error e ↔ h'.kind (join directory name) = .error e

theorem SameFailures.list_cases (hfail : SameFailures h h' ignored directory) :
    (∃ e, h.list directory = .error e ∧ h'.list directory = .error e) ∨
      ∃ names names', h.list directory = .ok names ∧ h'.list directory = .ok names' := by
  cases hl : h.list directory with
  | error e => exact Or.inl ⟨e, rfl, (hfail.list e).mp hl⟩
  | ok names =>
    cases hl' : h'.list directory with
    | error e => exact absurd (hl.symm.trans ((hfail.list e).mpr hl')) (by simp)
    | ok names' => exact Or.inr ⟨names, names', rfl, rfl⟩

theorem kind_eq (hsame : SameEntries h h' ignored directory)
    (hfail : SameFailures h h' ignored directory)
    (hi : isIgnored ignored (join directory name) = false) (hl : Lists h directory name) :
    h.kind (join directory name) = h'.kind (join directory name) := by
  cases hk : h.kind (join directory name) with
  | error e => exact ((hfail.kind name hi hl e).mp hk).symm
  | ok kind => exact (((hsame name hi).2 hl kind).mp hk).symm

/-! ## One directory -/

theorem walkEntry_of_ignored {below : String → Logged (List String)}
    (hi : isIgnored ignored (join directory name) = true) :
    (walkEntry h ignored below directory name).result = .ok [] := by
  simp [walkEntry, hi]

theorem walkEntry_congr {below below' : String → Logged (List String)}
    (hk : h.kind (join directory name) = h'.kind (join directory name))
    (hb : h.kind (join directory name) = .ok .directory →
      (below (join directory name)).result = (below' (join directory name)).result) :
    (walkEntry h ignored below directory name).result =
      (walkEntry h' ignored below' directory name).result := by
  cases hi : isIgnored ignored (join directory name) with
  | true => rw [walkEntry_of_ignored hi, walkEntry_of_ignored hi]
  | false =>
    simp only [walkEntry, hi, ← hk]
    cases hkind : h.kind (join directory name) with
    | error e => rfl
    | ok kind =>
      cases kind with
      | directory => exact hb hkind
      | file => rfl
      | link => rfl
      | pipe => rfl

/-- Ignored entries do not count for the result of a walk. -/
theorem walkDirectory_of_list {names : List String} (depth : Nat)
    (hl : h.list directory = .ok names) :
    (walkDirectory h ignored (depth + 1) directory).result =
      (Logged.each (walkEntry h ignored (walkDirectory h ignored depth) directory)
        ((sortNames names).filter fun n => !isIgnored ignored (join directory n))).result.map
          List.flatten := by
  have hignored : ∀ n ∈ sortNames names, (!isIgnored ignored (join directory n)) = false →
      (walkEntry h ignored (walkDirectory h ignored depth) directory n).result = .ok [] := by
    intro n _ hi
    exact walkEntry_of_ignored (by simpa using hi)
  rw [Logged.each_filter_flatten hignored]
  simp only [walkDirectory, hl]
  rw [Logged.bind_result]
  rfl

/-- Names that count are taken in the same order if they are the same names. -/
theorem filter_sortNames {names names' : List String} {p : String → Bool} (hn : names.Nodup)
    (hn' : names'.Nodup) (hm : ∀ n, p n = true → (n ∈ names ↔ n ∈ names')) :
    (sortNames names).filter p = (sortNames names').filter p := by
  have hsorted := (sortNames_pairwise hn).filter p
  have hsorted' := (sortNames_pairwise hn').filter p
  refine List.Perm.eq_of_pairwise (fun a b _ _ hab hba => absurd hab hba.asymm) hsorted hsorted' ?_
  have hnodup : ∀ ns : List String, ns.Nodup → ((sortNames ns).filter p).Nodup :=
    fun ns h => ((sortNames_perm ns).nodup_iff.mpr h).filter p
  rw [List.perm_ext_iff_of_nodup (hnodup names hn) (hnodup names' hn')]
  intro n
  rw [List.mem_filter, List.mem_filter, (sortNames_perm names).mem_iff,
    (sortNames_perm names').mem_iff]
  constructor
  · rintro ⟨hm', hp⟩
    exact ⟨(hm n hp).mp hm', hp⟩
  · rintro ⟨hm', hp⟩
    exact ⟨(hm n hp).mpr hm', hp⟩

/-- The walks of a directory agree if they agree about its entries and about the directories in it. -/
theorem walkDirectory_succ_congr {depth : Nat} (hsame : SameEntries h h' ignored directory)
    (hfail : SameFailures h h' ignored directory)
    (hb : ∀ name, isIgnored ignored (join directory name) = false → Lists h directory name →
      h.kind (join directory name) = .ok .directory →
      (walkDirectory h ignored depth (join directory name)).result =
        (walkDirectory h' ignored depth (join directory name)).result) :
    (walkDirectory h ignored (depth + 1) directory).result =
      (walkDirectory h' ignored (depth + 1) directory).result := by
  rcases hfail.list_cases with ⟨e, hl, hl'⟩ | ⟨names, names', hl, hl'⟩
  · rw [walkDirectory_of_error _ hl, walkDirectory_of_error _ hl']
  · have hmem : ∀ n, (!isIgnored ignored (join directory n)) = true → (n ∈ names ↔ n ∈ names') := by
      intro n hi
      simpa [Disk.Lists, hl, hl'] using (hsame n (by simpa using hi)).1
    rw [walkDirectory_of_list depth hl, walkDirectory_of_list depth hl',
      ← filter_sortNames (h.list_nodup _ _ hl) (h'.list_nodup _ _ hl') hmem]
    congr 1
    apply Logged.each_congr
    intro n hn
    obtain ⟨hn, hi⟩ := List.mem_filter.mp hn
    have hlists : Lists h directory n := ⟨names, hl, (sortNames_perm names).mem_iff.mp hn⟩
    have hvisible : isIgnored ignored (join directory n) = false := by simpa using hi
    exact walkEntry_congr (kind_eq hsame hfail hvisible hlists) (hb n hvisible hlists)

/-- Walks agree if the file systems agree about every directory that one of the walks gets to. -/
theorem walkDirectory_congr {depth : Nat}
    (hsame : ∀ d, Reaches h ignored directory d → SameEntries h h' ignored d)
    (hfail : ∀ d, Reaches h ignored directory d → SameFailures h h' ignored d) :
    (walkDirectory h ignored depth directory).result =
      (walkDirectory h' ignored depth directory).result := by
  induction depth generalizing directory with
  | zero =>
    rcases (hfail _ (.here _)).list_cases with ⟨e, hl, hl'⟩ | ⟨names, names', hl, hl'⟩
    · rw [walkDirectory_of_error _ hl, walkDirectory_of_error _ hl']
    · simp [walkDirectory, hl, hl']
  | succ depth ih =>
    refine walkDirectory_succ_congr (hsame _ (.here _)) (hfail _ (.here _)) ?_
    intro name hi hl hk
    exact ih (fun d hd => hsame d (.inside hl hi hk hd)) fun d hd => hfail d (.inside hl hi hk hd)

/-! ## Trees -/

/-- Two trees that agree about the entries of a directory agree about what fails there. -/
theorem sameFailures_host {top top' : Disk.Node} (hd : top.host.target directory = .ok .directory)
    (hd' : top'.host.target directory = .ok .directory)
    (hsame : SameEntries top.host top'.host ignored directory) :
    SameFailures top.host top'.host ignored directory := by
  obtain ⟨names, hl⟩ := Disk.list_of_directory hd
  obtain ⟨names', hl'⟩ := Disk.list_of_directory hd'
  constructor
  · simp [hl, hl']
  · intro name hi hlists e
    obtain ⟨kind, hk, -⟩ := Disk.exists_kind_of_lists hlists
    obtain ⟨kind', hk', -⟩ := Disk.exists_kind_of_lists ((hsame name hi).1.mp hlists)
    rw [hk, hk']
    exact ⟨fun he => Disk.answerAt_eq_error he kind', fun he => Disk.answerAt_eq_error he kind⟩

/-- A walk of a tree gets to directories only, in every tree that agrees about their entries. -/
theorem target_of_reaches {top top' : Disk.Node} (hr : Reaches top.host ignored root directory)
    (hd : top.host.target root = .ok .directory) (hd' : top'.host.target root = .ok .directory)
    (hsame : ∀ d, Reaches top.host ignored root d → SameEntries top.host top'.host ignored d) :
    top.host.target directory = .ok .directory ∧ top'.host.target directory = .ok .directory := by
  induction hr with
  | here => exact ⟨hd, hd'⟩
  | inside hl hi hk _ ih =>
    obtain ⟨hiff, hkinds⟩ := hsame _ (.here _) _ hi
    have hk' := (hkinds hl .directory).mp hk
    exact ih (Disk.target_of_kind hl hk (by simp)) (Disk.target_of_kind (hiff.mp hl) hk' (by simp))
      fun d hd => hsame d (.inside hl hi hk hd)

/-- What keeps a walk from failing in one of two file systems only: what fails in one fails in the other,
or both are trees with a directory at the root, where it is for the paths alone what fails. -/
inductive FailAlike (ignored : List String) (root : String) : Host → Host → Prop where
  | answers {h h' : Host} :
      (∀ d, Reaches h ignored root d → SameFailures h h' ignored d) → FailAlike ignored root h h'
  | trees {top top' : Disk.Node} : top.host.target root = .ok .directory →
      top'.host.target root = .ok .directory → FailAlike ignored root top.host top'.host

theorem walk_congr (hsame : ∀ d, Reaches h ignored root d → SameEntries h h' ignored d)
    (hfail : FailAlike ignored root h h') :
    (walk h root ignored).result = (walk h' root ignored).result := by
  refine walkDirectory_congr hsame ?_
  cases hfail with
  | answers hfail => exact hfail
  | trees hd hd' =>
    intro d hr
    obtain ⟨hd, hd'⟩ := target_of_reaches hr hd hd' hsame
    exact sameFailures_host hd hd' (hsame d hr)

/-! ## Reports -/

/-- All of a list that has a key stands together. -/
def Block {α : Type} (key : α → String) (f : String) (all part : List α) : Prop :=
  ∃ before after, all = before ++ part ++ after ∧ (∀ a ∈ part, key a = f) ∧
    ∀ a ∈ before ++ after, key a ≠ f

theorem block_flatMap {α : Type} {key : α → String} {files : List String} (part : String → List α)
    (hkey : ∀ f, ∀ a ∈ part f, key a = f) (hn : files.Nodup) {f : String} (hf : f ∈ files) :
    Block key f (files.flatMap part) (part f) := by
  obtain ⟨before, after, hsplit, -, hother⟩ := filter_flatMap_of_key hkey hn hf
  exact ⟨before, after, hsplit, hkey f, hother⟩

theorem scanOf_congr {f : String} (hread : h.read f = h'.read f) : scanOf h f = scanOf h' f := by
  rw [scanOf, scanOf, hread]

/-- What a report says about a file of a walk. -/
theorem blocks_of_scan {files : List String} {f : String} (hn : files.Nodup) (hf : f ∈ files) :
    Block CallableRecord.file f (ScanReport.ofScans (files.map (scanOf h))).records
        (scanOf h f).records ∧
      Block Script.ParseError.file f (ScanReport.ofScans (files.map (scanOf h))).failures
        (scanOf h f).failure.toList := by
  rw [ofScans_records, ofScans_failures]
  exact ⟨block_flatMap _ (fun _ _ => file_of_mem_scanOf_records) hn hf,
    block_flatMap (fun f => (scanOf h f).failure.toList) (fun _ _ => file_of_mem_scanOf_failure) hn hf⟩

/-- Two file systems with the same visible entries below a root are walked alike, and what is reported of
a file depends on its bytes alone: neither other files nor what is ignored, nor where links lead,
makes a difference. -/
theorem scans_are_local {options : ScanOptions}
    (hsame : ∀ d, Reaches h options.ignored root d → SameEntries h h' options.ignored d)
    (hfail : FailAlike options.ignored root h h') :
    (walk h root options.ignored).result = (walk h' root options.ignored).result ∧
      ∀ files, (walk h root options.ignored).result = .ok files →
        (∀ f ∈ files, (∃ bytes, h.read f = .ok bytes) ∧ ∃ bytes, h'.read f = .ok bytes) →
        ∀ s s', ∃ report report',
          (scanProject h s root options).result = .ok report ∧
          (scanProject h' s' root options).result = .ok report' ∧
          (∀ f ∈ files, h.read f = h'.read f →
            (∃ block, Block CallableRecord.file f report.records block ∧
              Block CallableRecord.file f report'.records block) ∧
            ∃ failure : Option Script.ParseError,
              Block Script.ParseError.file f report.failures failure.toList ∧
              Block Script.ParseError.file f report'.failures failure.toList) ∧
          ((∀ f ∈ files, h.read f = h'.read f) → report = report') := by
  have hwalk := walk_congr hsame hfail
  refine ⟨hwalk, ?_⟩
  intro files hw hread s s'
  refine ⟨_, _, scanProject_of_readable hw fun f hf => (hread f hf).1,
    scanProject_of_readable (hwalk ▸ hw) fun f hf => (hread f hf).2, ?_, ?_⟩
  · intro f hf hbytes
    obtain ⟨hrecords, hfailures⟩ := blocks_of_scan (h := h) (walk_nodup hw) hf
    obtain ⟨hrecords', hfailures'⟩ := blocks_of_scan (h := h') (walk_nodup hw) hf
    rw [← scanOf_congr hbytes] at hrecords' hfailures'
    exact ⟨⟨_, hrecords, hrecords'⟩, _, hfailures, hfailures'⟩
  · intro hall
    have hscans : files.map (scanOf h) = files.map (scanOf h') :=
      List.map_congr_left fun f hf => scanOf_congr (hall f hf)
    rw [hscans]

/-- A project with an ignored directory, a link and a script that can be parsed beside one in a directory. -/
def sampleBefore : Disk.Node := .directory [
  ("b.js", .file (Text.bytes "let x")),
  ("l", .link "b.js"),
  ("lib", .directory [("a.js", .file (Text.bytes "function f() {}"))]),
  ("tests", .directory [("t.js", .file [])])]

/-- The project with the script broken, the link turned and the ignored directory gone. -/
def sampleAfter : Disk.Node := .directory [
  ("lib", .directory [("a.js", .file (Text.bytes "function f() {}"))]),
  ("l", .link "lib/gone"),
  ("b.js", .file (Text.bytes "("))]

theorem sameEntries_sample : ∀ d, Reaches sampleBefore.host ["tests"] "/" d →
    SameEntries sampleBefore.host sampleAfter.host ["tests"] d := by
  have htop : sampleBefore.host.list "/" = .ok ["b.js", "l", "lib", "tests"] := by decide +kernel
  have htop' : sampleAfter.host.list "/" = .ok ["lib", "l", "b.js"] := by decide +kernel
  have hlib : sampleBefore.host.list "/lib" = .ok ["a.js"] := by decide +kernel
  have hlib' : sampleAfter.host.list "/lib" = .ok ["a.js"] := by decide +kernel
  have hkinds : ∀ name ∈ ["b.js", "l", "lib"],
      sampleBefore.host.kind (join "/" name) = sampleAfter.host.kind (join "/" name) := by
    decide +kernel
  have hkind : sampleBefore.host.kind (join "/lib" "a.js") = .ok .file := by decide +kernel
  have hkind' : sampleAfter.host.kind (join "/lib" "a.js") = .ok .file := by decide +kernel
  have hdirectories : ∀ name ∈ ["b.js", "l", "lib", "tests"],
      isIgnored ["tests"] (join "/" name) = false →
      sampleBefore.host.kind (join "/" name) = .ok .directory → name = "lib" := by
    decide +kernel
  intro d hr
  cases hr with
  | here =>
    intro name hi
    have hne : name ≠ "tests" := by
      rintro rfl
      exact absurd hi (by decide)
    have hm : name ∈ ["b.js", "l", "lib", "tests"] ↔ name ∈ ["b.js", "l", "lib"] := by simp [hne]
    rw [lists_iff htop, lists_iff htop', hm]
    refine ⟨by simp [or_comm, or_left_comm], ?_⟩
    intro hm kind
    rw [hkinds name hm]
  | inside hl hi hk hr =>
    obtain rfl := hdirectories _ ((lists_iff htop).mp hl) hi hk
    cases hr with
    | here =>
      intro name _
      rw [show join "/" "lib" = "/lib" from rfl, lists_iff hlib, lists_iff hlib']
      refine ⟨Iff.rfl, ?_⟩
      intro hm kind
      obtain rfl := List.mem_singleton.mp hm
      rw [hkind, hkind']
    | inside hl _ hk =>
      obtain rfl := List.mem_singleton.mp ((lists_iff hlib).mp hl)
      exact absurd (hkind.symm.trans hk) (by simp)

theorem scans_are_local_sample :
    (walk sampleBefore.host "/" ["tests"]).result = .ok ["/b.js", "/lib/a.js"] ∧
      (walk sampleBefore.host "/" ["tests"]).result = (walk sampleAfter.host "/" ["tests"]).result ∧
      ∃ report report',
        (scanProject sampleBefore.host .inTurn "/" ⟨["tests"], 1⟩).result = .ok report ∧
        (scanProject sampleAfter.host .inTurn "/" ⟨["tests"], 1⟩).result = .ok report' ∧
        ∃ block, Block CallableRecord.file "/lib/a.js" report.records block ∧
          Block CallableRecord.file "/lib/a.js" report'.records block := by
  have hfail : FailAlike ["tests"] "/" sampleBefore.host sampleAfter.host :=
    .trees (by decide +kernel) (by decide +kernel)
  have hwalk : (walk sampleBefore.host "/" ["tests"]).result = .ok ["/b.js", "/lib/a.js"] := by
    decide +kernel
  have hb : sampleBefore.host.read "/b.js" = .ok (Text.bytes "let x") := by decide +kernel
  have hb' : sampleAfter.host.read "/b.js" = .ok (Text.bytes "(") := by decide +kernel
  have ha : sampleBefore.host.read "/lib/a.js" = .ok (Text.bytes "function f() {}") := by
    decide +kernel
  have ha' : sampleAfter.host.read "/lib/a.js" = .ok (Text.bytes "function f() {}") := by
    decide +kernel
  have hread : ∀ f ∈ ["/b.js", "/lib/a.js"], (∃ bytes, sampleBefore.host.read f = .ok bytes) ∧
      ∃ bytes, sampleAfter.host.read f = .ok bytes := by
    intro f hf
    rcases List.mem_cons.mp hf with rfl | hf
    · exact ⟨⟨_, hb⟩, _, hb'⟩
    · obtain rfl := List.mem_singleton.mp hf
      exact ⟨⟨_, ha⟩, _, ha'⟩
  obtain ⟨hsame, hscan⟩ := @scans_are_local _ _ _ ⟨["tests"], 1⟩ sameEntries_sample hfail
  obtain ⟨report, report', hr, hr', hblocks, -⟩ := hscan _ hwalk hread .inTurn .inTurn
  exact ⟨hwalk, hsame, report, report', hr, hr', (hblocks _ (by simp) (ha.trans ha'.symm)).1⟩

end Census
