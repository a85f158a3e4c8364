import Census.Proofs.Command.Composition
import Census.Proofs.Project.Locality
/-!
What a scan is told to ignore. The empty text is a part of every path. Settings that hold it are refused,
so that no settings bring it to a scan; the command line is taken as it is, and with an empty text
among its parts to ignore a run succeeds and reports nothing.
-/

namespace Census.Command

open Census.Disk (Host)
open Census.Settings (Chooses GoesBy Outcome Says filled)

variable {h : Host} {s : Schedule} {o : Options} {filterText : Option String}

/-- A run gets to a scan of a path with some options: the path is given and there, and its settings can be
loaded. -/
structure Scans (h : Host) (o : Options) (path : String) (options : ScanOptions) : Prop where
  given : o.path = some path
  found : h.exists? path = true
  loaded : ∃ resolved, Settings.load h path o.config = .ok resolved ∧ options = scanOptions o resolved

/-- What a run that gets to a scan does is that scan. -/
theorem Scans.perform_result {path : String} {options : ScanOptions} (hs : Scans h o path options) :
    (perform h s o).result = (scanProject h s path options).result.mapError (.scan path) := by
  obtain ⟨hpath, hfound, resolved, hload, rfl⟩ := hs
  simp [perform, hpath, hfound, hload]

/-- Settings that count hold no empty text, nor do the usual ones. -/
theorem emptyPart_notMem_of_goesBy {root : String} {named : Option String} {settings : Settings}
    (hby : GoesBy h root named settings) : "" ∉ settings.ignore.getD ["node_modules", "tests"] := by
  cases hby with
  | usual => simp [Settings.empty]
  | file _ ho =>
    cases hp : settings.ignore with
    | none => simp
    | some parts => exact ho.valid parts hp

/-- An empty text among the parts to ignore comes from the command line. -/
theorem emptyPart_mem_iff {path : String} {options : ScanOptions} (hs : Scans h o path options) :
    "" ∈ options.ignored ↔ "" ∈ o.ignore := by
  obtain ⟨-, -, resolved, hload, rfl⟩ := hs
  obtain ⟨settings, source, hby, rfl⟩ := Settings.goesBy_of_load hload
  rw [scanOptions_filled]
  change "" ∈ ignoredParts o settings ↔ _
  unfold ignoredParts
  cases hi : o.ignore with
  | nil => simpa using emptyPart_notMem_of_goesBy hby
  | cons part parts => exact Iff.rfl

/-! ## An empty text on the command line -/

theorem isIgnored_of_emptyPart {ignored : List String} (he : "" ∈ ignored) (path : String) :
    isIgnored ignored path = true :=
  isIgnored_iff.mpr ⟨"", he, by simp⟩

theorem walk_of_emptyPart {ignored names : List String} {root : String} (he : "" ∈ ignored)
    (hl : h.list root = .ok names) : (walk h root ignored).result = .ok [] := by
  have hnone : (sortNames names).filter
      (fun n => !isIgnored ignored (Disk.join root n)) = [] := by
    rw [List.filter_eq_nil_iff]
    intro n _
    simp [isIgnored_of_emptyPart he]
  have hwalk : (walk h root ignored).result = _ := walkDirectory_of_list 4095 hl
  rw [hnone] at hwalk
  exact hwalk

/-- With an empty text to ignore a scan of a directory reports nothing, and this is no error. -/
theorem scanProject_of_emptyPart {options : ScanOptions} {names : List String} {root : String}
    (he : "" ∈ options.ignored) (hl : h.list root = .ok names) :
    (scanProject h s root options).result = .ok ⟨[], []⟩ :=
  scanProject_of_readable (walk_of_emptyPart he hl) (by simp)

/-! ## An empty text in settings -/

theorem load_of_emptyPart {root : String} {named : Option String} {source : SettingsSource}
    {bytes : List UInt8} {text : List Char} {settings : Settings} {parts : List String}
    (hc : Chooses h root named (.file source)) (hr : h.read source.path = .ok bytes)
    (hd : Text.decode? bytes = some text) (hs : Says source text (.ok settings))
    (hp : settings.ignore = some parts) (he : "" ∈ parts) :
    Settings.load h root named = .error (.invalid source .emptyPart) := by
  obtain ⟨r, ho, hload⟩ := Settings.load_of_file hc
  rw [hr] at ho
  rw [hload, ho.eq_checked hd hs]
  simp [Settings.checked, Settings.validate_eq_error hp he]

/-- A scan is told to ignore the empty text exactly if the command line says so. Then it reports an empty
project, whatever is in the directory; where settings say so the run is refused. -/
theorem emptyPart_only_from_command_line {words : List String}
    (hw : read words = .ok (.run o)) :
    (∀ path options, Scans h o path options → ("" ∈ options.ignored ↔ "" ∈ o.ignore)) ∧
      (∀ path options names, Scans h o path options → "" ∈ o.ignore → h.list path = .ok names →
        (run h s filterText words).exitCode = 0 ∧
          (run h s filterText words).stdout = reportText o.format []) ∧
      ∀ path source bytes text settings parts, o.path = some path →
        Chooses h path o.config (.file source) → h.read source.path = .ok bytes →
        Text.decode? bytes = some text → Says source text (.ok settings) →
        settings.ignore = some parts → "" ∈ parts →
        Settings.load h path o.config = .error (.invalid source .emptyPart) ∧
          (run h s filterText words).exitCode = 1 ∧ (run h s filterText words).stdout = "" := by
  rw [run_of_read hw]
  refine ⟨fun _ _ => emptyPart_mem_iff, ?_, ?_⟩
  · intro path options names hs he hl
    have hreport : (perform h s o).result = .ok ⟨[], []⟩ := by
      rw [hs.perform_result, scanProject_of_emptyPart ((emptyPart_mem_iff hs).mpr he) hl]
      rfl
    exact runWith_of_records s filterText (records_iff.mpr ⟨_, hreport, rfl⟩)
  · intro path source bytes text settings parts hpath hc hr hd hs hp he
    have hload := load_of_emptyPart hc hr hd hs hp he
    refine ⟨hload, runWith_of_no_records s filterText ?_⟩
    rintro _ ⟨hpath', _, hby, _, _⟩
    obtain rfl := Option.some.inj (hpath.symm.trans hpath')
    obtain ⟨source', hok⟩ := Settings.load_of_goesBy hby
    exact absurd (hload.symm.trans hok) (by simp)

theorem scans_sampleProject :
    Scans sampleProject.host ⟨some "/", .text, [""], none, none, false⟩ "/" ⟨[""], 1⟩ :=
  ⟨rfl, by decide +kernel, ⟨["node_modules", "tests"], 1, none⟩, by decide +kernel, by decide⟩

theorem emptyPart_only_from_command_line_sampleProject :
    read ["/", "--ignore", ""] = .ok (.run ⟨some "/", .text, [""], none, none, false⟩) ∧
      (run sampleProject.host .inTurn none ["/", "--ignore", ""]).exitCode = 0 ∧
      (run sampleProject.host .inTurn none ["/", "--ignore", ""]).stdout = reportText .text [] := by
  have hw : read ["/", "--ignore", ""] = .ok (.run ⟨some "/", .text, [""], none, none, false⟩) := by
    decide +kernel
  have hl : sampleProject.host.list "/" = .ok ["f.js", "g.js"] := by decide +kernel
  obtain ⟨-, hempty, -⟩ :=
    @emptyPart_only_from_command_line sampleProject.host .inTurn _ none _ hw
  exact ⟨hw, hempty "/" _ _ scans_sampleProject (by decide) hl⟩

/-- The empty text can reach a scan. -/
theorem emptyPart_reaches_scan :
    ¬ ∀ (h : Host) (words : List String) (o : Options) (path : String) (options : ScanOptions),
      read words = .ok (.run o) → Scans h o path options → "" ∉ options.ignored := by
  intro hnever
  have hw : read ["/", "--ignore", ""] = .ok (.run ⟨some "/", .text, [""], none, none, false⟩) := by
    decide +kernel
  exact hnever sampleProject.host _ _ "/" _ hw scans_sampleProject (by decide)

end Census.Command
