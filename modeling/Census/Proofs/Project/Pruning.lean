import Census.Proofs.Project.Walk
/-!
Ignored texts beside others. The path of a directory starts the path of whatever is below it, so a
directory that is passed over takes with it only what would have been passed over on its own: a walk
with more ignored texts finds what is left of the walk with fewer.
-/

namespace Census

open Census.Disk (Host join under)

variable {h : Host} {ignored more : List String} {directory name root : String}

/-! ## Ignored paths -/

theorem isIgnored_append (ignored more : List String) (path : String) :
    isIgnored (ignored ++ more) path = (isIgnored ignored path || isIgnored more path) := by
  simp [isIgnored, List.any_append]

theorem isIgnored_of_prefix {path longer : String} (hp : path.toList <+: longer.toList)
    (hi : isIgnored ignored path = true) : isIgnored ignored longer = true := by
  obtain ⟨part, hm, hpart⟩ := isIgnored_iff.mp hi
  exact isIgnored_iff.mpr ⟨part, hm, hpart.trans hp.isInfix⟩

theorem prefix_join (directory name : String) : directory.toList <+: (join directory name).toList := by
  unfold join
  split <;> simp [String.toList_append]

/-- The path of a directory starts the path of everything below it. -/
theorem prefix_under (directory : String) (names : List String) :
    directory.toList <+: (under directory names).toList := by
  induction names generalizing directory with
  | nil => exact List.prefix_refl _
  | cons name names ih =>
    rw [Disk.under_cons]
    exact (prefix_join directory name).trans (ih _)

/-! ## Walks -/

/-- What is left of paths when those with an ignored text in them are dropped. -/
def pruned (ignored : List String) (paths : List String) : List String :=
  paths.filter fun path => !isIgnored ignored path

theorem mem_pruned {path : String} {paths : List String} :
    path ∈ pruned ignored paths ↔ path ∈ paths ∧ ∀ part ∈ ignored, ¬ part.toList <:+: path.toList := by
  rw [pruned, List.mem_filter, Bool.not_eq_true', isIgnored_eq_false_iff]

/-- Nothing is left of what a walk finds below an ignored path. -/
theorem pruned_of_ignored {depth : Nat} {files : List String}
    (hw : (walkDirectory h ignored depth directory).result = .ok files)
    (hi : isIgnored more directory = true) : pruned more files = [] := by
  rw [pruned, List.filter_eq_nil_iff]
  intro path hpath
  rw [walkDirectory_eq_ok hw] at hpath
  obtain ⟨names, -, rfl⟩ := List.mem_map.mp hpath
  simpa using isIgnored_of_prefix (prefix_under directory names) hi

theorem pruned_flatten (found : List (List String)) :
    pruned ignored found.flatten = (found.map (pruned ignored)).flatten :=
  List.filter_flatten

/-- One entry: it is passed over for a further text, or it is taken as before. -/
theorem walkEntry_append {below below' : String → Logged (List String)} {found : List String}
    (hb : ∀ path files, (below path).result = .ok files →
      (below' path).result = .ok (pruned more files) ∧
        (isIgnored more path = true → pruned more files = []))
    (hw : (walkEntry h ignored below directory name).result = .ok found) :
    (walkEntry h (ignored ++ more) below' directory name).result = .ok (pruned more found) := by
  simp only [walkEntry, isIgnored_append] at hw ⊢
  cases hi : isIgnored ignored (join directory name) with
  | true =>
    have hfound : [] = found := by simpa [hi] using hw
    simp [← hfound, pruned]
  | false =>
    cases hk : h.kind (join directory name) with
    | error e => simp [hi, hk] at hw
    | ok kind =>
      cases kind with
      | directory =>
        obtain ⟨hok, hnone⟩ := hb (join directory name) found (by simpa [hi, hk] using hw)
        cases hm : isIgnored more (join directory name) with
        | true => simp [hnone hm]
        | false => simpa using hok
      | file =>
        have hfound : (if isScriptName name then [join directory name] else []) = found := by
          simpa [hi, hk, Logged.pure] using hw
        rw [← hfound]
        cases hm : isIgnored more (join directory name) <;> cases isScriptName name <;>
          simp [pruned, Logged.pure, hm]
      | link =>
        have hfound : [] = found := by simpa [hi, hk] using hw
        cases hm : isIgnored more (join directory name) <;> simp [← hfound, pruned]
      | pipe =>
        have hfound : [] = found := by simpa [hi, hk, Logged.pure] using hw
        cases hm : isIgnored more (join directory name) <;> simp [← hfound, pruned, Logged.pure]

theorem walkDirectory_append {depth : Nat} {files : List String}
    (hw : (walkDirectory h ignored depth directory).result = .ok files) :
    (walkDirectory h (ignored ++ more) depth directory).result = .ok (pruned more files) := by
  induction depth generalizing directory files with
  | zero => exact absurd hw walkDirectory_zero_ne_ok
  | succ depth ih =>
    obtain ⟨names, found, hl, rfl, hfound⟩ := walkDirectory_succ_eq_ok hw
    have heach : (Logged.each (walkEntry h (ignored ++ more)
        (walkDirectory h (ignored ++ more) depth) directory) (sortNames names)).result =
        .ok (found.map (pruned more)) := by
      rw [Logged.each_eq_ok, List.forall₂_map_right_iff]
      refine (Logged.each_eq_ok.mp hfound).imp ?_
      intro name files hfiles
      exact walkEntry_append (fun _ _ hok => ⟨ih hok, pruned_of_ignored hok⟩) hfiles
    rw [pruned_flatten]
    simp only [walkDirectory, hl]
    exact Logged.bind_result_eq_ok.mpr ⟨_, heach, rfl⟩

/-- A walk that is not stopped is not stopped with more ignored texts either. It then finds the same files
in the same order, apart from those with one of the further texts somewhere in their own path. -/
theorem walk_prunes_ignored {files : List String}
    (hw : (walk h root ignored).result = .ok files) :
    (walk h root (ignored ++ more)).result = .ok (pruned more files) ∧
      (pruned more files).Sublist files ∧
      ∀ path, path ∈ pruned more files ↔
        path ∈ files ∧ ∀ part ∈ more, ¬ part.toList <:+: path.toList :=
  ⟨walkDirectory_append hw, List.filter_sublist, fun _ => mem_pruned⟩

/-- A text that spans a slash takes a script away, one that the root has in it takes away everything. -/
theorem walk_prunes_ignored_sampleTree :
    (walk sampleTree.host "/a/" []).result = .ok ["/a/y.js"] ∧
      (walk sampleTree.host "/" []).result = .ok ["/a/y.js", "/a!/x.mjs", "/skip/x.js"] ∧
      (walk sampleTree.host "/" ["!/x", "skip"]).result = .ok ["/a/y.js"] ∧
      (walk sampleTree.host "/a/" ["/a/"]).result = .ok [] := by
  have ha : (walk sampleTree.host "/a/" []).result = .ok ["/a/y.js"] := by decide +kernel
  have hall : (walk sampleTree.host "/" []).result =
      .ok ["/a/y.js", "/a!/x.mjs", "/skip/x.js"] := by
    decide +kernel
  obtain ⟨hspan, -⟩ := @walk_prunes_ignored _ _ ["!/x", "skip"] _ _ hall
  obtain ⟨hroot, -⟩ := @walk_prunes_ignored _ _ ["/a/"] _ _ ha
  exact ⟨ha, hall, hspan, hroot⟩

end Census
