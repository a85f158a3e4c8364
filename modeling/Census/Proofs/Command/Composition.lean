import Census.Command.Run
import Census.Proofs.Project.Report
import Census.Proofs.Settings.Choice
/-!
A run as a composition. A run that is asked for a report loads the settings of the path, walks it and
reads what it finds; it prints the report of that and nothing else, or it prints nothing and fails.
How many workers there are and what is told on the side does not matter.
-/

namespace Census.Command

open Census.Disk (Host)
open Census.Settings (GoesBy filled)

variable {h : Host} {s : Schedule} {o : Options} {filterText : Option String}

/-- Parts to ignore: those of the command line if there are any, else those of the settings, else the
usual ones. -/
def ignoredParts (o : Options) (settings : Settings) : List String :=
  match o.ignore with
  | [] => settings.ignore.getD ["node_modules", "tests"]
  | parts => parts

/-- The number of workers: that of the command line, else that of the settings, else one. -/
def workers (o : Options) (settings : Settings) : UInt64 :=
  match o.jobs with
  | none => settings.jobs.getD 1
  | some jobs => jobs

theorem scanOptions_filled (o : Options) (settings : Settings) (source : Option String) :
    scanOptions o (filled settings source) = ⟨ignoredParts o settings, workers o settings⟩ := by
  rw [scanOptions, ignoredParts, workers, filled, ScanOptions.mk.injEq]
  constructor
  · cases o.ignore <;> rfl
  · cases o.jobs <;> rfl

/-- What a run does to get to a report: the path is there, its settings can be loaded, and the scan of the
path succeeds. -/
structure Reports (h : Host) (s : Schedule) (o : Options) (path : String) (settings : Settings)
    (report : ScanReport) : Prop where
  given : o.path = some path
  found : h.exists? path = true
  loaded : ∃ source, Settings.load h path o.config = .ok (filled settings source)
  goesBy : GoesBy h path o.config settings
  scanned : (scanProject h s path ⟨ignoredParts o settings, workers o settings⟩).result = .ok report

theorem perform_eq_ok {report : ScanReport} :
    (perform h s o).result = .ok report ↔ ∃ path settings, Reports h s o path settings report := by
  constructor
  · intro hr
    unfold perform at hr
    split at hr
    · simp at hr
    · rename_i path hpath
      split at hr
      · simp at hr
      · rename_i hfound
        split at hr
        · simp at hr
        · rename_i resolved hload
          obtain ⟨settings, source, hby, rfl⟩ := Settings.goesBy_of_load hload
          rw [scanOptions_filled] at hr
          refine ⟨path, settings, hpath, by simpa using hfound, ⟨source, hload⟩, hby, ?_⟩
          cases hscan : (scanProject h s path ⟨ignoredParts o settings, workers o settings⟩).result with
          | error e => simp [hscan] at hr
          | ok found => simpa [hscan] using hr
  · rintro ⟨path, settings, hpath, hfound, ⟨source, hload⟩, -, hscan⟩
    simp [perform, hpath, hfound, hload, scanOptions_filled, hscan]

/-- What a run prints a report of, if it does: the records of all files that are walked. Neither the
number of workers nor their schedule is looked at. -/
inductive Records (h : Host) (o : Options) : List CallableRecord → Prop where
  | mk {path : String} {settings : Settings} {files : List String} : o.path = some path →
      h.exists? path = true → GoesBy h path o.config settings →
      (walk h path (ignoredParts o settings)).result = .ok files →
      (∀ f ∈ files, ∃ bytes, h.read f = .ok bytes) →
      Records h o (files.flatMap fun f => (scanOf h f).records)

theorem records_iff {records : List CallableRecord} :
    Records h o records ↔ ∃ report, (perform h s o).result = .ok report ∧ report.records = records := by
  constructor
  · rintro ⟨hpath, hfound, hby, hw, hread⟩
    obtain ⟨source, hload⟩ := Settings.load_of_goesBy hby
    refine ⟨_, perform_eq_ok.mpr ⟨_, _, hpath, hfound, ⟨source, hload⟩, hby,
      scanProject_of_readable hw hread⟩, ofScans_records h _⟩
  · rintro ⟨report, hr, rfl⟩
    obtain ⟨path, settings, hreports⟩ := perform_eq_ok.mp hr
    obtain ⟨files, hw, hscan, rfl⟩ := scanProject_eq_ok hreports.scanned
    rw [ofScans_records]
    refine .mk hreports.given hreports.found hreports.goesBy hw ?_
    intro f hf
    obtain ⟨bytes, hbytes, -⟩ := scanFile_eq_ok.mp (hscan f hf)
    exact ⟨bytes, hbytes⟩

theorem Records.of_same {o' : Options} {records : List CallableRecord} (hpath : o'.path = o.path)
    (hconfig : o'.config = o.config) (hignore : o'.ignore = o.ignore) (hr : Records h o records) :
    Records h o' records := by
  obtain ⟨hp, hfound, hby, hw, hread⟩ := hr
  refine .mk (hpath.trans hp) hfound (hconfig ▸ hby) ?_ hread
  rw [ignoredParts, hignore]
  exact hw

/-! ## Exit codes and reports -/

theorem runWith_of_records {records : List CallableRecord} (s : Schedule)
    (filterText : Option String) (hr : Records h o records) :
    (runWith h s filterText o).exitCode = 0 ∧
      (runWith h s filterText o).stdout = reportText o.format records := by
  obtain ⟨report, hreport, rfl⟩ := (records_iff (s := s)).mp hr
  simp [runWith, hreport]

theorem runWith_of_no_records (s : Schedule) (filterText : Option String)
    (hn : ∀ records, ¬ Records h o records) :
    (runWith h s filterText o).exitCode = 1 ∧ (runWith h s filterText o).stdout = "" := by
  cases hr : (perform h s o).result with
  | error e => simp [runWith, hr]
  | ok report => exact absurd (records_iff.mpr ⟨report, hr, rfl⟩) (hn _)

theorem runWith_exitCode_eq_zero_iff :
    (runWith h s filterText o).exitCode = 0 ↔ ∃ records, Records h o records := by
  constructor
  · intro hzero
    by_contra hn
    have hone := (runWith_of_no_records s filterText (not_exists.mp hn)).1
    rw [hone] at hzero
    exact absurd hzero (by decide)
  · rintro ⟨records, hr⟩
    exact (runWith_of_records s filterText hr).1

/-- What is told about a run, its workers and their order do not show in what it prints. -/
theorem runWith_same {s' : Schedule} {filterText' : Option String} {o' : Options}
    (hpath : o'.path = o.path) (hconfig : o'.config = o.config) (hignore : o'.ignore = o.ignore)
    (hformat : o'.format = o.format) :
    (runWith h s' filterText' o').exitCode = (runWith h s filterText o).exitCode ∧
      (runWith h s' filterText' o').stdout = (runWith h s filterText o).stdout := by
  by_cases hr : ∃ records, Records h o records
  · obtain ⟨records, hr⟩ := hr
    obtain ⟨hcode, hout⟩ := runWith_of_records s filterText hr
    obtain ⟨hcode', hout'⟩ := runWith_of_records s' filterText'
      (hr.of_same hpath hconfig hignore)
    rw [hcode, hcode', hout, hout', hformat]
    exact ⟨rfl, rfl⟩
  · have hr' : ∀ records, ¬ Records h o' records := fun records hr' =>
      hr ⟨records, hr'.of_same hpath.symm hconfig.symm hignore.symm⟩
    obtain ⟨hcode, hout⟩ := runWith_of_no_records s filterText (not_exists.mp hr)
    obtain ⟨hcode', hout'⟩ := runWith_of_no_records s' filterText' hr'
    rw [hcode, hcode', hout, hout']
    exact ⟨rfl, rfl⟩

theorem run_of_read {words : List String} (hw : read words = .ok (.run o)) :
    run h s filterText words = runWith h s filterText o := by
  simp [run, hw]

/-- A run that is asked for a report succeeds exactly if the path is given and there, its settings can be
loaded and its scan succeeds, and then it prints the report; else it fails with nothing printed. The
second condition for success shows that files that cannot be parsed do no harm, and the last but one
that neither workers nor what is told on the side count. -/
theorem run_is_composition {words : List String} (hw : read words = .ok (.run o)) :
    ((run h s filterText words).exitCode = 0 ↔
      ∃ path settings report, Reports h s o path settings report) ∧
    (∀ path settings report, Reports h s o path settings report →
      (run h s filterText words).stdout =
        match o.format with
        | .text => "Function Definitions and Methods:\n" ++ Report.table report.records
        | .json => Report.document report.records ++ "\n") ∧
    ((run h s filterText words).exitCode ≠ 0 →
      (run h s filterText words).exitCode = 1 ∧ (run h s filterText words).stdout = "") ∧
    ((run h s filterText words).exitCode = 0 ↔ ∃ records, Records h o records) ∧
    (∀ s' filterText' words' o', read words' = .ok (.run o') → o'.path = o.path →
      o'.config = o.config → o'.ignore = o.ignore → o'.format = o.format →
      (run h s' filterText' words').exitCode = (run h s filterText words).exitCode ∧
        (run h s' filterText' words').stdout = (run h s filterText words).stdout) ∧
    ∀ path e, o.path = some path → Settings.load h path o.config = .error e →
      (run h s filterText words).exitCode = 1 ∧ (run h s filterText words).stdout = "" := by
  rw [run_of_read hw]
  have hreports : (∃ records, Records h o records) ↔
      ∃ path settings report, Reports h s o path settings report := by
    constructor
    · rintro ⟨records, hr⟩
      obtain ⟨report, hok, -⟩ := records_iff.mp hr
      obtain ⟨path, settings, hreports⟩ := perform_eq_ok.mp hok
      exact ⟨path, settings, report, hreports⟩
    · rintro ⟨path, settings, report, hreports⟩
      exact ⟨_, records_iff.mpr ⟨report, perform_eq_ok.mpr ⟨path, settings, hreports⟩, rfl⟩⟩
  refine ⟨runWith_exitCode_eq_zero_iff.trans hreports, ?_, ?_, runWith_exitCode_eq_zero_iff, ?_, ?_⟩
  · intro path settings report hr
    have hok := perform_eq_ok.mpr ⟨path, settings, hr⟩
    rw [(runWith_of_records s filterText (records_iff.mpr ⟨report, hok, rfl⟩)).2]
    cases o.format <;> rfl
  · intro hne
    refine runWith_of_no_records s filterText (not_exists.mp fun hr => hne ?_)
    exact runWith_exitCode_eq_zero_iff.mpr hr
  · intro s' filterText' words' o' hw' hpath hconfig hignore hformat
    rw [run_of_read hw']
    exact runWith_same hpath hconfig hignore hformat
  · intro path e hpath he
    refine runWith_of_no_records s filterText ?_
    rintro _ ⟨hpath', _, hby, _, _⟩
    obtain rfl := Option.some.inj (hpath.symm.trans hpath')
    obtain ⟨source, hload⟩ := Settings.load_of_goesBy hby
    exact absurd (he.symm.trans hload) (by simp)

/-- A file that cannot be parsed, four workers and silence change nothing about a run that succeeds. -/
theorem run_is_composition_sampleProject :
    read ["--format", "json", "/"] = .ok (.run ⟨some "/", .json, [], none, none, false⟩) ∧
      (run sampleProject.host .inTurn none ["--format", "json", "/"]).exitCode = 0 ∧
      (run sampleProject.host ⟨[.pickUp 1], 0⟩ (some "trace")
        ["-q", "--jobs=4", "/", "--format=json"]).stdout =
        (run sampleProject.host .inTurn none ["--format", "json", "/"]).stdout := by
  have hw : read ["--format", "json", "/"] = .ok (.run ⟨some "/", .json, [], none, none, false⟩) := by
    decide +kernel
  have hw' : read ["-q", "--jobs=4", "/", "--format=json"] =
      .ok (.run ⟨some "/", .json, [], none, some 4, true⟩) := by
    decide +kernel
  obtain ⟨-, -, -, -, hsame, -⟩ :=
    @run_is_composition sampleProject.host .inTurn _ none _ hw
  exact ⟨hw, by decide +kernel, (hsame _ _ _ _ hw' rfl rfl rfl rfl).2⟩

end Census.Command
