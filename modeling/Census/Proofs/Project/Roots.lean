import Census.Proofs.Disk.SamePlace
import Census.Proofs.Project.Walk
/-!
Spellings of a root. A walk looks at places, and a path only says how to get to one: whichever way a root
is spelled, through links, detours or further slashes, a walk of it that is not stopped finds the same
scripts in the same order, and only what stands before their names is spelled like the root.
-/

namespace Census

open Census.Disk (Host Lists SamePlace isEntryName join lead locateFrom under)

variable {here : List String} {top : Disk.Node} {directory directory' root root' : String}
  {files files' : List String}

/-- With nothing ignored, a walk that is not stopped has looked at every entry. -/
theorem exists_kind_of_walkDirectory {h : Host} {depth : Nat} {names : List String} {name : String}
    (hw : (walkDirectory h [] (depth + 1) directory).result = .ok files)
    (hl : h.list directory = .ok names) (hn : name ∈ names) :
    ∃ kind, h.kind (join directory name) = .ok kind := by
  obtain ⟨names', found, hl', -, hfound⟩ := walkDirectory_succ_eq_ok hw
  obtain rfl : names = names' := Except.ok.inj (hl.symm.trans hl')
  obtain ⟨f, -, hf⟩ := Logged.exists_ok_of_mem hfound ((sortNames_perm names).mem_iff.mpr hn)
  cases hk : h.kind (join directory name) with
  | ok kind => exact ⟨kind, rfl⟩
  | error e => simp [walkEntry, isIgnored, hk] at hf

/-- What an entry of one place leads to is the same by both paths of the place. -/
theorem entryScripts_of_samePlace {depth : Nat} {names : List String} {name : String}
    (hs : SamePlace here top directory directory')
    (hw : (walkDirectory (top.hostFrom here) [] (depth + 1) directory).result = .ok files)
    (hw' : (walkDirectory (top.hostFrom here) [] (depth + 1) directory').result = .ok files')
    (hl : (top.hostFrom here).list directory = .ok names)
    (hl' : (top.hostFrom here).list directory' = .ok names) (hn : name ∈ names)
    (hbelow : SamePlace here top (join directory name) (join directory' name) →
      (∃ found, (walkDirectory (top.hostFrom here) [] depth (join directory name)).result = .ok found) →
      (∃ found, (walkDirectory (top.hostFrom here) [] depth (join directory' name)).result = .ok found) →
      scriptNames (top.hostFrom here) [] depth (join directory name) =
        scriptNames (top.hostFrom here) [] depth (join directory' name)) :
    entryScripts (top.hostFrom here) [] (scriptNames (top.hostFrom here) [] depth) directory name =
      entryScripts (top.hostFrom here) [] (scriptNames (top.hostFrom here) [] depth) directory' name := by
  have hlists : Lists (top.hostFrom here) directory name := ⟨names, hl, hn⟩
  obtain ⟨kind, hk⟩ := exists_kind_of_walkDirectory hw hl hn
  obtain ⟨kind', hk'⟩ := exists_kind_of_walkDirectory hw' hl' hn
  obtain rfl : kind = kind' := hs.kind_eq hlists hk hk'
  simp only [entryScripts, entryRests, hk, hk']
  cases kind with
  | directory =>
    have hsame := hbelow (hs.join hlists hk hk') (walkDirectory_entry_ok hw hl hn rfl hk)
      (walkDirectory_entry_ok hw' hl' hn rfl hk')
    simp [isIgnored, hsame]
  | file => rfl
  | link => rfl
  | pipe => rfl

/-- Walks of one place find the same names. -/
theorem scriptNames_of_samePlace {depth : Nat} (hs : SamePlace here top directory directory')
    (hw : (walkDirectory (top.hostFrom here) [] depth directory).result = .ok files)
    (hw' : (walkDirectory (top.hostFrom here) [] depth directory').result = .ok files') :
    scriptNames (top.hostFrom here) [] depth directory =
      scriptNames (top.hostFrom here) [] depth directory' := by
  induction depth generalizing directory directory' files files' with
  | zero => rfl
  | succ depth ih =>
    obtain ⟨names, -, hl, -, -⟩ := walkDirectory_succ_eq_ok hw
    obtain ⟨names', -, hl', -, -⟩ := walkDirectory_succ_eq_ok hw'
    obtain rfl : names = names' := hs.list_eq hl hl'
    rw [scriptNames, scriptNames, hl, hl']
    refine List.flatMap_congr fun name hm => ?_
    have hn : name ∈ names := (sortNames_perm names).mem_iff.mp hm
    refine entryScripts_of_samePlace hs hw hw' hl hl' hn ?_
    rintro hbelow ⟨found, hfound⟩ ⟨found', hfound'⟩
    exact ih hbelow hfound hfound'

/-! ## What stands before the names -/

/-- What is left of a path without a root and what joins the two. -/
def below (root path : String) : String := String.ofList (path.toList.drop (lead root).length)

/-- The path of a script is the root of the walk, what joins it to a name, and the rest. -/
theorem lead_append_below {h : Host} {ignored : List String}
    (hw : (walk h root ignored).result = .ok files) :
    ∀ f ∈ files, lead root ++ (below root f).toList = f.toList := by
  intro f hf
  rw [walkDirectory_eq_ok hw] at hf
  obtain ⟨names, hm, rfl⟩ := List.mem_map.mp hf
  have hscript := leadsToScript_of_mem hm
  obtain ⟨name, names, rfl⟩ := List.exists_cons_of_ne_nil hscript.nonempty
  rw [below, Disk.toList_under hscript.entries, List.drop_left, String.toList_ofList]

theorem below_under {names : List String} (hne : names ≠ [])
    (hentries : ∀ n ∈ names, isEntryName n = true) :
    below root (under root names) = below root' (under root' names) := by
  obtain ⟨name, names, rfl⟩ := List.exists_cons_of_ne_nil hne
  rw [below, below, Disk.toList_under hentries, Disk.toList_under hentries, List.drop_left,
    List.drop_left]

/-- Walks of one directory by two spellings of it, where neither is stopped, find the same scripts in the
same order: their paths are the same but for the root that they begin with. -/
theorem walk_of_respelled_root {place : List String}
    (hroot : locateFrom here top true root = .ok place)
    (hroot' : locateFrom here top true root' = .ok place)
    (hw : (walk (top.hostFrom here) root []).result = .ok files)
    (hw' : (walk (top.hostFrom here) root' []).result = .ok files') :
    files.map (below root) = files'.map (below root') ∧
      (∀ f ∈ files, lead root ++ (below root f).toList = f.toList) ∧
      ∀ f ∈ files', lead root' ++ (below root' f).toList = f.toList := by
  have hkeys := scriptNames_of_samePlace ⟨place, hroot, hroot'⟩ hw hw'
  refine ⟨?_, lead_append_below hw, lead_append_below hw'⟩
  rw [walkDirectory_eq_ok hw, walkDirectory_eq_ok hw', ← hkeys, List.map_map, List.map_map]
  refine List.map_congr_left fun names hm => ?_
  have hscript := leadsToScript_of_mem hm
  exact below_under hscript.nonempty hscript.entries

/-- A project with links to itself and to the directory above it. -/
def sampleLinks : Disk.Node := .directory [
  ("p", .directory [
    ("z.js", .file []),
    ("self", .link "."),
    ("lib", .directory [("up", .link "../.."), ("a.mjs", .file [])])])]

theorem walk_of_respelled_root_sampleLinks :
    (walk (sampleLinks.hostFrom ["p"]) "../p//" []).result = .ok ["../p//lib/a.mjs", "../p//z.js"] ∧
      (walk (sampleLinks.hostFrom ["p"]) "lib/up/p/self" []).result =
        .ok ["lib/up/p/self/lib/a.mjs", "lib/up/p/self/z.js"] ∧
      ["../p//lib/a.mjs", "../p//z.js"].map (below "../p//") =
        ["lib/up/p/self/lib/a.mjs", "lib/up/p/self/z.js"].map (below "lib/up/p/self") := by
  have hroot : locateFrom ["p"] sampleLinks true "../p//" = .ok ["p"] := by decide +kernel
  have hroot' : locateFrom ["p"] sampleLinks true "lib/up/p/self" = .ok ["p"] := by decide +kernel
  have hw : (walk (sampleLinks.hostFrom ["p"]) "../p//" []).result =
      .ok ["../p//lib/a.mjs", "../p//z.js"] := by
    decide +kernel
  have hw' : (walk (sampleLinks.hostFrom ["p"]) "lib/up/p/self" []).result =
      .ok ["lib/up/p/self/lib/a.mjs", "lib/up/p/self/z.js"] := by
    decide +kernel
  exact ⟨hw, hw', (walk_of_respelled_root hroot hroot' hw hw').1⟩

end Census
