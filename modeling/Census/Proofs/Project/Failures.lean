import Census.Proofs.Project.Locality
/-!
What stops a walk. A directory that cannot be listed and an entry that cannot be looked at stop a walk
if it gets to them, and it reports the first of them in its own order. The order in which a file
system lists entries makes no difference, nor does anything that fails where the walk never looks.
-/

namespace Census

open Census.Disk (Host Lists OsError isEntryName join under)

variable {h h' : Host} {ignored : List String} {root directory name : String}
  {names names' rest : List String} {cause cause' : OsError}

/-! ## Listing orders -/

/-- A directory has the same entries in two file systems, listed in any order, or it cannot be listed for
the same reason; and the entries that are not ignored are the same to look at. -/
structure SameAnswers (h h' : Host) (ignored : List String) (directory : String) : Prop where
  list_error : ∀ e, h.list directory = .error e ↔ h'.list directory = .error e
  list_perm : ∀ names names', h.list directory = .ok names → h'.list directory = .ok names' →
    names.Perm names'
  kind : ∀ name, Lists h directory name → isIgnored ignored (join directory name) = false →
    h.kind (join directory name) = h'.kind (join directory name)

theorem SameAnswers.failures (hs : SameAnswers h h' ignored directory) :
    SameFailures h h' ignored directory where
  list := hs.list_error
  kind name hi hl e := by rw [hs.kind name hl hi]

theorem SameAnswers.lists_iff (hs : SameAnswers h h' ignored directory) :
    Lists h directory name ↔ Lists h' directory name := by
  rcases hs.failures.list_cases with ⟨e, hl, hl'⟩ | ⟨names, names', hl, hl'⟩
  · simp [Disk.Lists, hl, hl']
  · simp [Disk.Lists, hl, hl', (hs.list_perm names names' hl hl').mem_iff]

theorem SameAnswers.entries (hs : SameAnswers h h' ignored directory) :
    SameEntries h h' ignored directory := by
  intro name hi
  refine ⟨hs.lists_iff, ?_⟩
  intro hl kind
  rw [hs.kind name hl hi]

/-! ## Failures -/

/-- A failure that a walk of a directory can meet, by the names that lead to it: through directories that
are no links and past no ignored path, to something that cannot be looked at or to a directory
that cannot be listed. -/
inductive FailsAt (h : Host) (ignored : List String) : String → List String → OsError → Prop where
  | list {directory : String} {cause : OsError} : h.list directory = .error cause →
      FailsAt h ignored directory [] cause
  | look {directory name : String} {cause : OsError} : Lists h directory name →
      isIgnored ignored (join directory name) = false →
      h.kind (join directory name) = .error cause → FailsAt h ignored directory [name] cause
  | inside {directory name : String} {names : List String} {cause : OsError} :
      Lists h directory name → isIgnored ignored (join directory name) = false →
      h.kind (join directory name) = .ok .directory →
      FailsAt h ignored (join directory name) names cause →
      FailsAt h ignored directory (name :: names) cause

/-- The failure that comes first: that of a directory before those inside it, and those inside in the
order of the names, by their bytes. -/
structure FirstFailure (h : Host) (ignored : List String) (root : String) (names : List String)
    (cause : OsError) : Prop where
  fails : FailsAt h ignored root names cause
  first : ∀ names' cause', FailsAt h ignored root names' cause' → names = names' ∨ Before names names'

theorem not_lists_of_error (hl : h.list directory = .error cause) : ¬ Lists h directory name := by
  rintro ⟨names, hok, -⟩
  exact absurd (hl.symm.trans hok) (by simp)

theorem failsAt_nil :
    FailsAt h ignored directory [] cause ↔ h.list directory = .error cause := by
  constructor
  · rintro ⟨⟩
    assumption
  · exact FailsAt.list

theorem failsAt_cons :
    FailsAt h ignored directory (name :: rest) cause ↔
      Lists h directory name ∧ isIgnored ignored (join directory name) = false ∧
        (h.kind (join directory name) = .error cause ∧ rest = [] ∨
          h.kind (join directory name) = .ok .directory ∧
            FailsAt h ignored (join directory name) rest cause) := by
  constructor
  · intro hf
    cases hf with
    | look hl hi hk => exact ⟨hl, hi, Or.inl ⟨hk, rfl⟩⟩
    | inside hl hi hk hrest => exact ⟨hl, hi, Or.inr ⟨hk, hrest⟩⟩
  · rintro ⟨hl, hi, ⟨hk, rfl⟩ | ⟨hk, hrest⟩⟩
    · exact .look hl hi hk
    · exact .inside hl hi hk hrest

/-- A failure has one cause: the answer of the file system at its path. -/
theorem FailsAt.unique (hf : FailsAt h ignored directory names cause)
    (hf' : FailsAt h ignored directory names cause') : cause = cause' := by
  induction hf with
  | list hl => exact Except.error.inj (hl.symm.trans (failsAt_nil.mp hf'))
  | look _ _ hk =>
    obtain ⟨-, -, ⟨hk', -⟩ | ⟨hk', -⟩⟩ := failsAt_cons.mp hf'
    · exact Except.error.inj (hk.symm.trans hk')
    · exact absurd (hk.symm.trans hk') (by simp)
  | inside _ _ hk _ ih =>
    obtain ⟨-, -, ⟨hk', -⟩ | ⟨-, hrest⟩⟩ := failsAt_cons.mp hf'
    · exact absurd (hk.symm.trans hk') (by simp)
    · exact ih hrest

theorem Before.asymm {as bs : List String} (hab : Before as bs) : ¬ Before bs as :=
  fun hba => List.lt_irrefl _ (List.lt_trans hab hba)

theorem FirstFailure.unique (hf : FirstFailure h ignored root names cause)
    (hf' : FirstFailure h ignored root names' cause') : names = names' ∧ cause = cause' := by
  have hnames : names = names' := by
    rcases hf.first _ _ hf'.fails with heq | hbefore
    · exact heq
    · rcases hf'.first _ _ hf.fails with heq | hafter
      · exact heq.symm
      · exact absurd hafter hbefore.asymm
  subst hnames
  exact ⟨rfl, hf.fails.unique hf'.fails⟩

/-- What fails is not ignored and lies behind no link, nor does anything on the way to it. -/
theorem FailsAt.visible (hf : FailsAt h ignored directory names cause) (i : Nat) (hpos : 0 < i)
    (hle : i ≤ names.length) :
    (∀ part ∈ ignored, ¬ part.toList <:+: (under directory (names.take i)).toList) ∧
      (i < names.length → h.kind (under directory (names.take i)) = .ok .directory) := by
  induction hf generalizing i with
  | list =>
    simp only [List.length_nil] at hle
    omega
  | look _ hi _ =>
    obtain rfl : i = 1 := by
      simp only [List.length_singleton] at hle
      omega
    exact ⟨isIgnored_eq_false_iff.mp hi, by simp⟩
  | @inside d n ns c _ hi hk _ ih =>
    obtain ⟨i, rfl⟩ : ∃ j, i = j + 1 := ⟨i - 1, by omega⟩
    rw [List.take_succ_cons, Disk.under_cons]
    rcases Nat.eq_zero_or_pos i with rfl | hi'
    · exact ⟨isIgnored_eq_false_iff.mp hi, fun _ => hk⟩
    · obtain ⟨hparts, hdir⟩ := ih i hi' (by simpa using hle)
      exact ⟨hparts, fun hlt => hdir (by simpa using hlt)⟩

/-! ## What stops a walk -/

theorem walkEntry_eq_error {below : String → Logged (List String)} {e : ScanError} :
    (walkEntry h ignored below directory name).result = .error e ↔
      isIgnored ignored (join directory name) = false ∧
        ((∃ cause, h.kind (join directory name) = .error cause ∧
            e = .directory (join directory name) cause) ∨
          h.kind (join directory name) = .ok .directory ∧
            (below (join directory name)).result = .error e) := by
  unfold walkEntry
  cases hi : isIgnored ignored (join directory name) with
  | true => simp [hi]
  | false =>
    cases hk : h.kind (join directory name) with
    | error cause => simp [hi, hk, eq_comm]
    | ok kind => cases kind <;> simp [hi, hk, Logged.pure]

/-- A walk that is not stopped met no failure. -/
theorem not_failsAt_of_walkDirectory {depth : Nat} {files : List String}
    (hw : (walkDirectory h ignored depth directory).result = .ok files) :
    ¬ FailsAt h ignored directory names cause := by
  induction depth generalizing directory files names with
  | zero => exact absurd hw walkDirectory_zero_ne_ok
  | succ depth ih =>
    obtain ⟨listed, found, hl, -, hfound⟩ := walkDirectory_succ_eq_ok hw
    intro hf
    cases hf with
    | list he => exact absurd (hl.symm.trans he) (by simp)
    | look hlists hi hk =>
      obtain ⟨listed', hl', hm⟩ := hlists
      obtain rfl : listed = listed' := Except.ok.inj (hl.symm.trans hl')
      obtain ⟨r, -, hr⟩ := Logged.exists_ok_of_mem hfound ((sortNames_perm listed).mem_iff.mpr hm)
      have herror : (walkEntry h ignored (walkDirectory h ignored depth) directory _).result = _ :=
        walkEntry_eq_error.mpr ⟨hi, Or.inl ⟨_, hk, rfl⟩⟩
      exact absurd (hr.symm.trans herror) (by simp)
    | inside hlists hi hk hrest =>
      obtain ⟨listed', hl', hm⟩ := hlists
      obtain rfl : listed = listed' := Except.ok.inj (hl.symm.trans hl')
      obtain ⟨r, hr⟩ := walkDirectory_entry_ok hw hl hm hi hk
      exact ih hr hrest

/-- What fails under a name makes the step for that name fail. -/
theorem walkEntry_ne_ok_of_failsAt {depth : Nat} {files : List String}
    (hf : FailsAt h ignored directory (name :: rest) cause) :
    (walkEntry h ignored (walkDirectory h ignored depth) directory name).result ≠ .ok files := by
  intro hok
  obtain ⟨-, hi, ⟨hk, -⟩ | ⟨hk, hrest⟩⟩ := failsAt_cons.mp hf
  · simp [walkEntry, hi, hk] at hok
  · exact not_failsAt_of_walkDirectory (by simpa [walkEntry, hi, hk] using hok) hrest

theorem each_of_walkDirectory {depth : Nat} {listed : List String} {e : ScanError}
    (hl : h.list directory = .ok listed)
    (hw : (walkDirectory h ignored (depth + 1) directory).result = .error e) :
    (Logged.each (walkEntry h ignored (walkDirectory h ignored depth) directory)
      (sortNames listed)).result = .error e := by
  simp only [walkDirectory, hl] at hw
  rw [Logged.bind_result] at hw
  cases hr : (Logged.each (walkEntry h ignored (walkDirectory h ignored depth) directory)
      (sortNames listed)).result with
  | ok found => simp [hr, Except.bind] at hw
  | error e' => simpa [hr, Except.bind] using hw

theorem utf8ByteSize_join_lt (hn : isEntryName name = true) :
    directory.utf8ByteSize < (join directory name).utf8ByteSize := by
  have hpos : 0 < name.utf8ByteSize := by
    rw [Nat.pos_iff_ne_zero, ne_eq, String.utf8ByteSize_eq_zero_iff]
    rintro rfl
    simp [isEntryName] at hn
  unfold join
  split
  · rw [String.utf8ByteSize_append]
    omega
  · rw [String.utf8ByteSize_append, String.utf8ByteSize_append]
    omega

theorem firstFailure_of_list_error (hl : h.list directory = .error cause) :
    FirstFailure h ignored directory [] cause := by
  refine ⟨.list hl, ?_⟩
  intro names' cause' hf
  cases hf with
  | list => exact Or.inl rfl
  | look hlists => exact absurd hlists (not_lists_of_error hl)
  | inside hlists => exact absurd hlists (not_lists_of_error hl)

/-- A failure is the first if nothing fails under the names before, and it is the first under its own. -/
theorem firstFailure_cons {listed front back : List String} (hl : h.list directory = .ok listed)
    (hsplit : sortNames listed = front ++ name :: back)
    (hfront : ∀ b ∈ front, ∀ rest' cause', ¬ FailsAt h ignored directory (b :: rest') cause')
    (hf : FailsAt h ignored directory (name :: rest) cause)
    (hfirst : ∀ rest' cause', FailsAt h ignored directory (name :: rest') cause' →
      rest = rest' ∨ Before rest rest') :
    FirstFailure h ignored directory (name :: rest) cause := by
  refine ⟨hf, ?_⟩
  intro names' cause' hf'
  cases names' with
  | nil => exact absurd (hl.symm.trans (failsAt_nil.mp hf')) (by simp)
  | cons b rest' =>
    obtain ⟨⟨listed', hl', hm⟩, -⟩ := failsAt_cons.mp hf'
    obtain rfl : listed = listed' := Except.ok.inj (hl.symm.trans hl')
    have hb : b ∈ front ++ name :: back := hsplit ▸ (sortNames_perm listed).mem_iff.mpr hm
    rcases List.mem_append.mp hb with hb | hb
    · exact absurd hf' (hfront b hb rest' cause')
    · rcases List.mem_cons.mp hb with rfl | hb
      · rcases hfirst rest' cause' hf' with rfl | hbefore
        · exact Or.inl rfl
        · exact Or.inr (before_cons hbefore b)
      · have hsorted := sortNames_pairwise (h.list_nodup _ _ hl)
        rw [hsplit] at hsorted
        have hlt : name < b :=
          (List.pairwise_cons.mp (List.pairwise_append.mp hsorted).2.1).1 b hb
        exact Or.inr (before_cons_of_lt hlt rest rest')

/-- The error of a walk is that of the first failure. The bound on the depth is no cause of its own, as
the paths at that depth are too long to be listed. -/
theorem firstFailure_of_walkDirectory {depth : Nat} {e : ScanError}
    (hdeep : Disk.pathLimit ≤ depth + directory.utf8ByteSize)
    (hw : (walkDirectory h ignored depth directory).result = .error e) :
    ∃ names cause, FirstFailure h ignored directory names cause ∧
      e = .directory (under directory names) cause := by
  induction depth generalizing directory e with
  | zero =>
    cases hl : h.list directory with
    | ok listed =>
      have hshort := h.list_short _ _ hl
      omega
    | error cause =>
      rw [walkDirectory_of_error _ hl] at hw
      exact ⟨[], cause, firstFailure_of_list_error hl, (Except.error.inj hw).symm⟩
  | succ depth ih =>
    cases hl : h.list directory with
    | error cause =>
      rw [walkDirectory_of_error _ hl] at hw
      exact ⟨[], cause, firstFailure_of_list_error hl, (Except.error.inj hw).symm⟩
    | ok listed =>
      obtain ⟨front, name, back, hsplit, hfront, hname⟩ :=
        Logged.each_eq_error.mp (each_of_walkDirectory hl hw)
      have hquiet : ∀ b ∈ front, ∀ rest' cause',
          ¬ FailsAt h ignored directory (b :: rest') cause' := by
        intro b hb rest' cause' hf
        obtain ⟨r, hr⟩ := hfront b hb
        exact walkEntry_ne_ok_of_failsAt hf hr
      have hlists : Lists h directory name :=
        ⟨listed, hl, (sortNames_perm listed).mem_iff.mp (by simp [hsplit])⟩
      obtain ⟨hi, ⟨cause, hk, rfl⟩ | ⟨hk, hbelow⟩⟩ := walkEntry_eq_error.mp hname
      · refine ⟨[name], cause, firstFailure_cons hl hsplit hquiet (.look hlists hi hk) ?_, rfl⟩
        intro rest' cause' hf
        obtain ⟨-, -, ⟨-, rfl⟩ | ⟨hk', -⟩⟩ := failsAt_cons.mp hf
        · exact Or.inl rfl
        · exact absurd (hk.symm.trans hk') (by simp)
      · have hlonger : directory.utf8ByteSize < (join directory name).utf8ByteSize :=
          utf8ByteSize_join_lt (h.list_isEntryName _ _ hl name
            ((sortNames_perm listed).mem_iff.mp (by simp [hsplit])))
        obtain ⟨rest, cause, hrest, rfl⟩ := ih (by omega) hbelow
        refine ⟨name :: rest, cause, firstFailure_cons hl hsplit hquiet
          (.inside hlists hi hk hrest.fails) ?_, rfl⟩
        intro rest' cause' hf
        obtain ⟨-, -, ⟨hk', -⟩ | ⟨-, hf⟩⟩ := failsAt_cons.mp hf
        · exact absurd (hk.symm.trans hk') (by simp)
        · exact hrest.first rest' cause' hf

/-- Walks do not depend on the order of listings, nor on anything that fails where they do not look. A
walk is stopped exactly if a failure can be met, and its error tells the path and the cause of the
first one in the order of the walk. No failure at an ignored path, below one or behind a link can
be met. -/
theorem walk_stops_at_first_failure (h : Host) (root : String) (ignored : List String) :
    (∀ h' : Host, (∀ d, Reaches h ignored root d → SameAnswers h h' ignored d) →
        (walk h' root ignored).result = (walk h root ignored).result) ∧
      ((∃ e, (walk h root ignored).result = .error e) ↔
        ∃ names cause, FailsAt h ignored root names cause) ∧
      (∀ e, (walk h root ignored).result = .error e ↔
        ∃ names cause, FirstFailure h ignored root names cause ∧
          e = .directory (under root names) cause) ∧
      ∀ names cause, FailsAt h ignored root names cause → ∀ i, 0 < i → i ≤ names.length →
        (∀ part ∈ ignored, ¬ part.toList <:+: (under root (names.take i)).toList) ∧
          (i < names.length → h.kind (under root (names.take i)) = .ok .directory) := by
  have hfirst : ∀ e, (walk h root ignored).result = .error e →
      ∃ names cause, FirstFailure h ignored root names cause ∧
        e = .directory (under root names) cause :=
    fun e => firstFailure_of_walkDirectory (Nat.le_add_right _ _)
  have hstops : ∀ names cause, FailsAt h ignored root names cause →
      ∃ e, (walk h root ignored).result = .error e := by
    intro names cause hf
    cases hw : (walk h root ignored).result with
    | error e => exact ⟨e, rfl⟩
    | ok files => exact absurd hf (not_failsAt_of_walkDirectory hw)
  refine ⟨?_, ⟨?_, ?_⟩, ?_, ?_⟩
  · intro h' hsame
    exact (walkDirectory_congr (fun d hd => (hsame d hd).entries)
      fun d hd => (hsame d hd).failures).symm
  · rintro ⟨e, he⟩
    obtain ⟨names, cause, hf, -⟩ := hfirst e he
    exact ⟨names, cause, hf.fails⟩
  · rintro ⟨names, cause, hf⟩
    exact hstops names cause hf
  · intro e
    refine ⟨hfirst e, ?_⟩
    rintro ⟨names, cause, hf, rfl⟩
    obtain ⟨e, he⟩ := hstops names cause hf.fails
    obtain ⟨names', cause', hf', rfl⟩ := hfirst e he
    obtain ⟨rfl, rfl⟩ := hf.unique hf'
    exact he
  · intro names cause hf
    exact hf.visible

/-- A file system in which nothing is told about some paths. -/
def denying (h : Host) (paths : List String) : Host where
  list path := if paths.contains path then .error .denied else h.list path
  kind path := if paths.contains path then .error .denied else h.kind path
  target path := if paths.contains path then .error .denied else h.target path
  read path := if paths.contains path then .error .denied else h.read path
  list_nodup path names hl := by
    split at hl
    · simp at hl
    · exact h.list_nodup path names hl
  list_isEntryName path names hl := by
    split at hl
    · simp at hl
    · exact h.list_isEntryName path names hl
  list_short path names hl := by
    split at hl
    · simp at hl
    · exact h.list_short path names hl

/-- A file system that lists all entries the other way round. -/
def reversed (h : Host) : Host where
  list path := (h.list path).map List.reverse
  kind := h.kind
  target := h.target
  read := h.read
  list_nodup path names hl := by
    obtain ⟨listed, hlisted, rfl⟩ := map_eq_ok.mp hl
    exact List.nodup_reverse.mpr (h.list_nodup path listed hlisted)
  list_isEntryName path names hl := by
    obtain ⟨listed, hlisted, rfl⟩ := map_eq_ok.mp hl
    intro n hn
    exact h.list_isEntryName path listed hlisted n (List.mem_reverse.mp hn)
  list_short path names hl := by
    obtain ⟨listed, hlisted, -⟩ := map_eq_ok.mp hl
    exact h.list_short path listed hlisted

theorem sameAnswers_reversed : SameAnswers h (reversed h) ignored directory where
  list_error e := by
    change _ ↔ (h.list directory).map List.reverse = .error e
    cases h.list directory <;> simp [Except.map]
  list_perm names names' hl hl' := by
    obtain ⟨listed, hlisted, rfl⟩ := map_eq_ok.mp hl'
    obtain rfl : names = listed := Except.ok.inj (hl.symm.trans hlisted)
    exact (List.reverse_perm names).symm
  kind _ _ _ := rfl

/-- Of two directories that cannot be opened the one that comes first is reported, from either end of the
listing, and an ignored one counts for nothing. -/
theorem walk_stops_at_first_failure_sampleTree :
    (walk (denying sampleTree.host ["/skip", "/a!"]) "/" []).result =
        .error (.directory "/a!" .denied) ∧
      (walk (reversed (denying sampleTree.host ["/skip", "/a!"])) "/" []).result =
        .error (.directory "/a!" .denied) ∧
      ∀ names cause, ¬ FailsAt (denying sampleTree.host ["/skip"]) ["skip"] "/" names cause := by
  have hfails : (walk (denying sampleTree.host ["/skip", "/a!"]) "/" []).result =
      .error (.directory "/a!" .denied) := by
    decide +kernel
  have hfinds : (walk (denying sampleTree.host ["/skip"]) "/" ["skip"]).result =
      .ok ["/a/y.js", "/a!/x.mjs"] := by
    decide +kernel
  obtain ⟨hsame, -⟩ :=
    walk_stops_at_first_failure (denying sampleTree.host ["/skip", "/a!"]) "/" []
  obtain ⟨-, hstops, -⟩ :=
    walk_stops_at_first_failure (denying sampleTree.host ["/skip"]) "/" ["skip"]
  refine ⟨hfails, (hsame _ fun _ _ => sameAnswers_reversed).trans hfails, ?_⟩
  intro names cause hf
  obtain ⟨e, he⟩ := hstops.mpr ⟨names, cause, hf⟩
  exact absurd (hfinds.symm.trans he) (by simp)

end Census
