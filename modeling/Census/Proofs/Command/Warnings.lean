import Census.Proofs.Command.Composition
import Census.Proofs.Project.Events
/-!
What a run warns of. Unless the environment asks for something else, a run that succeeds tells nothing if
it is to be quiet, and otherwise the files that could not be parsed, in the order of the walk, and
then their number. So each file either adds to the report or is warned of.
-/

namespace Census.Command

open Census.Disk (Host)
open Census.Settings (GoesBy)

variable {h : Host} {s : Schedule} {o : Options} {path f : String} {settings : Settings}
  {report : ScanReport}

/-! ## What is told by default -/

theorem upTo_tells (level : Level) (e : Event) :
    (Filter.upTo level).tells e = decide (e.level.rank ≤ level.rank) := rfl

/-- There are no events that a quiet run tells. -/
theorem upTo_error_tells (e : Event) : (Filter.upTo .error).tells e = false := by
  cases e <;> rfl

theorem upTo_warn_tells_trace {e : Event} (he : IsTrace e) : (Filter.upTo .warn).tells e = false := by
  rw [upTo_tells, he]
  rfl

theorem filter_settingsEvents (r : Resolved) :
    (settingsEvents r).filter (Filter.upTo .warn).tells = [] := by
  unfold settingsEvents
  split <;> rfl

/-- Of what is told about the files of a walk, the failures are warnings. -/
theorem filter_fileEvents (files : List String) :
    (files.map fun f => (scanOf h f).event f).filter (Filter.upTo .warn).tells =
      (files.filterMap fun f => (scanOf h f).failure).map .parseFailed := by
  induction files with
  | nil => rfl
  | cons f files ih =>
    rw [List.map_cons, List.filter_cons, ih, List.filterMap_cons]
    cases hf : (scanOf h f).failure with
    | none => simp [FileScan.event, hf, upTo_tells, Event.level, Level.rank]
    | some e => simp [FileScan.event, hf, upTo_tells, Event.level, Level.rank]

theorem filter_reportEvents (r : ScanReport) :
    r.events.filter (Filter.upTo .warn).tells = r.events := by
  unfold ScanReport.events
  split <;> rfl

/-- What a scan with one worker warns of: each failure, and then their number if there are any. -/
theorem filter_scanEvents {ignored : List String}
    (hr : (scanProject h s path ⟨ignored, 1⟩).result = .ok report) :
    (scanProject h s path ⟨ignored, 1⟩).events.filter (Filter.upTo .warn).tells =
      report.failures.map .parseFailed ++ report.events := by
  obtain ⟨files, hw, hevents⟩ := scanProject_events hr
  obtain ⟨files', hw', -, rfl⟩ := scanProject_eq_ok hr
  obtain rfl : files = files' := Except.ok.inj (hw.symm.trans hw')
  have hwalk : (walk h path ignored).events.filter (Filter.upTo .warn).tells = [] := by
    rw [List.filter_eq_nil_iff]
    intro e he
    simp [upTo_warn_tells_trace (walkDirectory_tells _ _ e he)]
  have hdiscovered : (Filter.upTo .warn).tells (.discovered path files.length) = false := rfl
  rw [hevents, List.filter_append, hwalk, List.nil_append, List.filter_cons, hdiscovered,
    List.filter_append, filter_fileEvents, filter_reportEvents, ofScans_failures,
    List.filterMap_eq_flatMap_toList]
  rfl

/-- A run has one list of parts to ignore and one number of workers. -/
theorem options_unique {settings' : Settings} (hby : GoesBy h path o.config settings)
    (hby' : GoesBy h path o.config settings') :
    ignoredParts o settings = ignoredParts o settings' ∧ workers o settings = workers o settings' := by
  obtain ⟨source, hload⟩ := Settings.load_of_goesBy hby
  obtain ⟨source', hload'⟩ := Settings.load_of_goesBy hby'
  have hsame := Except.ok.inj (hload.symm.trans hload')
  rw [← ScanOptions.mk.injEq, ← scanOptions_filled, ← scanOptions_filled, hsame]

/-- What a run with one worker warns of is what its scan warns of. -/
theorem filter_performEvents (hr : Reports h s o path settings report)
    (hjobs : workers o settings = 1) :
    (perform h s o).events.filter (Filter.upTo .warn).tells =
      report.failures.map .parseFailed ++ report.events := by
  obtain ⟨source, hload⟩ := hr.loaded
  have hscan := hr.scanned
  rw [hjobs] at hscan
  rw [← filter_scanEvents hscan]
  simp [perform, hr.given, hr.found, hload, scanOptions_filled, hjobs, filter_settingsEvents]

/-! ## What is written -/

/-- The line that warns of a file that could not be parsed. -/
def failureLine (e : Script.ParseError) : String :=
  " WARN " ++ Event.safe ("error parsing file: " ++ e.message) ++ " file=" ++ e.file ++ " line="
    ++ toString e.line.toNat ++ "\n"

/-- The line that tells how many files could not be parsed. -/
def summaryLine (count : Nat) : String :=
  " WARN skipped " ++ toString count ++ " file(s) due to parse errors" ++ "\n"

theorem line_parseFailed (e : Script.ParseError) : (Event.parseFailed e).line = failureLine e := by
  have hlevel : " WARN" ++ " " = " WARN " := rfl
  calc (Event.parseFailed e).line
      = " WARN" ++ " " ++ (Event.safe ("error parsing file: " ++ e.message) ++ " file=" ++ e.file ++
          " line=" ++ toString e.line.toNat) ++ "\n" := rfl
    _ = failureLine e := by rw [hlevel, failureLine]; simp only [String.append_assoc]

theorem line_filesSkipped (count : Nat) : (Event.filesSkipped count).line = summaryLine count := by
  have hlevel : " WARN" ++ " " ++ "skipped " = " WARN skipped " := rfl
  calc (Event.filesSkipped count).line
      = " WARN" ++ " " ++ ("skipped " ++ toString count ++ " file(s) due to parse errors") ++ "\n" := rfl
    _ = summaryLine count := by rw [summaryLine, ← hlevel]; simp only [String.append_assoc]

theorem logText_failures (report : ScanReport) :
    String.join ((report.failures.map Event.parseFailed ++ report.events).map Event.line) =
      String.join (report.failures.map failureLine) ++
        if report.failures = [] then "" else summaryLine report.failures.length := by
  have hlines : (report.failures.map Event.parseFailed).map Event.line =
      report.failures.map failureLine := by
    rw [List.map_map]
    exact List.map_congr_left fun e _ => line_parseFailed e
  rw [List.map_append, hlines, String.join_append, ScanReport.events]
  cases hf : report.failures with
  | nil => rfl
  | cons e es => simp [line_filesSkipped]

/-! ## Runs that succeed -/

theorem reports_of_exitCode {words : List String} (hw : read words = .ok (.run o))
    (hzero : (run h s none words).exitCode = 0) :
    ∃ path settings report, Reports h s o path settings report ∧
      (run h s none words).stdout = reportText o.format report.records ∧
      (run h s none words).stderr = logText (.upTo (if o.quiet then .error else .warn))
        (perform h s o).events := by
  rw [run_of_read hw] at hzero ⊢
  obtain ⟨records, hrecords⟩ := runWith_exitCode_eq_zero_iff.mp hzero
  obtain ⟨report, hreport, -⟩ := records_iff.mp hrecords
  obtain ⟨path, settings, hr⟩ := perform_eq_ok.mp hreport
  exact ⟨path, settings, report, hr, by simp [runWith, hreport], by simp [runWith, hreport]; rfl⟩

/-- What a file of a walk comes to in a report: its records, or its failure. -/
theorem report_of_file {ignored files : List String} (hw : (walk h path ignored).result = .ok files)
    (hscan : ∀ f ∈ files, (scanFile h f).result = .ok (scanOf h f))
    (hreport : report = ScanReport.ofScans (files.map (scanOf h))) (hf : f ∈ files) :
    (∀ records, Contributes h f records →
        report.records.filter (·.file == f) = records ∧ ∀ e ∈ report.failures, e.file ≠ f) ∧
      (∀ e, FailsToParse h f e →
        report.failures.filter (·.file == f) = [e] ∧ ∀ r ∈ report.records, r.file ≠ f) ∧
      ((∃ records, Contributes h f records) ↔ ¬ ∃ e, FailsToParse h f e) := by
  have hn : files.Nodup := walk_nodup hw
  obtain ⟨-, -, -, hrecords, -⟩ :=
    filter_flatMap_of_key (fun _ _ => file_of_mem_scanOf_records (h := h)) hn hf
  obtain ⟨-, -, -, hfailures, -⟩ :=
    filter_flatMap_of_key (fun _ _ => file_of_mem_scanOf_failure (h := h)) hn hf
  rw [← ofScans_records, ← hreport] at hrecords
  rw [← ofScans_failures, ← hreport] at hfailures
  refine ⟨?_, ?_, ?_⟩
  · intro records hc
    have hs := (contributes_iff (hscan f hf)).mp hc
    rw [hs] at hrecords hfailures
    refine ⟨hrecords, ?_⟩
    simpa using hfailures
  · intro e he
    have hs := (failsToParse_iff (hscan f hf)).mp he
    rw [hs] at hrecords hfailures
    refine ⟨hfailures, ?_⟩
    simpa using hrecords
  · obtain ⟨bytes, hread, -⟩ := scanFile_eq_ok.mp (hscan f hf)
    exact contributes_iff_not_failsToParse hread

/-- The failures of a report stand in the order of the walk. -/
theorem failures_sublist (h : Host) (files : List String) :
    ((ScanReport.ofScans (files.map (scanOf h))).failures.map (·.file)).Sublist files := by
  rw [ofScans_failures]
  induction files with
  | nil => exact List.Sublist.refl _
  | cons f files ih =>
    rw [List.flatMap_cons, List.map_append]
    cases hf : (scanOf h f).failure with
    | none => exact ih.cons f
    | some e =>
      have hfile : e.file = f := file_of_mem_scanOf_failure (h := h) (by simp [hf])
      rw [← hfile]
      exact ih.cons_cons e.file

/-- A run that succeeds with one worker, while the environment asks for nothing about its log, writes no
errors: if it is to be quiet, nothing at all; otherwise a line for each file of the walk that cannot be
parsed, in the order of the walk, and after them their number if there are any. Each file of the walk
adds its records to the report, or there is a line about it, but not both. -/
theorem warnings_are_failures {words : List String} (hw : read words = .ok (.run o))
    (hzero : (run h s none words).exitCode = 0) (hpath : o.path = some path)
    (hby : GoesBy h path o.config settings) (hjobs : workers o settings = 1) :
    ∃ (files : List String) (report : ScanReport),
      (walk h path (ignoredParts o settings)).result = .ok files ∧
      (run h s none words).stdout = reportText o.format report.records ∧
      (o.quiet = true → (run h s none words).stderr = "") ∧
      (o.quiet = false → (run h s none words).stderr =
        String.join (report.failures.map failureLine) ++
          if report.failures = [] then "" else summaryLine report.failures.length) ∧
      (report.failures.map (·.file)).Sublist files ∧
      (∀ r ∈ report.records, r.file ∈ files) ∧
      ∀ f ∈ files,
        (∀ records, Contributes h f records →
          report.records.filter (·.file == f) = records ∧ ∀ e ∈ report.failures, e.file ≠ f) ∧
        (∀ e, FailsToParse h f e →
          report.failures.filter (·.file == f) = [e] ∧ ∀ r ∈ report.records, r.file ≠ f) ∧
        ((∃ records, Contributes h f records) ↔ ¬ ∃ e, FailsToParse h f e) := by
  obtain ⟨path', settings', report, hr, hout, herr⟩ := reports_of_exitCode hw hzero
  obtain rfl : path = path' := Option.some.inj (hpath.symm.trans hr.given)
  obtain ⟨hignored, hworkers⟩ := options_unique hby hr.goesBy
  obtain ⟨files, hwalk, hscan, hreport⟩ := scanProject_eq_ok hr.scanned
  refine ⟨files, report, by rw [hignored]; exact hwalk, hout, ?_, ?_, ?_, ?_, ?_⟩
  · intro hquiet
    rw [herr, hquiet, logText]
    have hnone : (perform h s o).events.filter (Filter.upTo .error).tells = [] := by
      rw [List.filter_eq_nil_iff]
      intro e _
      simp [upTo_error_tells]
    simp [hnone]
  · intro hquiet
    rw [herr, hquiet, ← logText_failures, ← filter_performEvents hr (hworkers.symm.trans hjobs)]
    rfl
  · rw [hreport]
    exact failures_sublist h files
  · intro r hm
    rw [hreport, ofScans_records] at hm
    obtain ⟨f, hf, hrf⟩ := List.mem_flatMap.mp hm
    exact file_of_mem_scanOf_records hrf ▸ hf
  · exact fun f hf => report_of_file hwalk hscan hreport hf

/-- The usual settings count where there are no others. -/
theorem warnings_are_failures_sampleProject :
    ∃ settings, read ["/"] = .ok (.run ⟨some "/", .text, [], none, none, false⟩) ∧
      (run sampleProject.host .inTurn none ["/"]).exitCode = 0 ∧
      GoesBy sampleProject.host "/" none settings ∧
      workers ⟨some "/", .text, [], none, none, false⟩ settings = 1 ∧
      (run sampleProject.host .inTurn none ["/"]).stderr =
        " WARN error parsing file: Expression expected file=/g.js line=1\n" ++
          " WARN skipped 1 file(s) due to parse errors\n" ∧
      ∃ report : ScanReport, (run sampleProject.host .inTurn none ["/"]).stderr =
        String.join (report.failures.map failureLine) ++
          if report.failures = [] then "" else summaryLine report.failures.length := by
  have hw : read ["/"] = .ok (.run ⟨some "/", .text, [], none, none, false⟩) := by decide +kernel
  have hzero : (run sampleProject.host .inTurn none ["/"]).exitCode = 0 := by decide +kernel
  have hload : Settings.load sampleProject.host "/" none = .ok ⟨["node_modules", "tests"], 1, none⟩ := by
    decide +kernel
  obtain ⟨settings, source, hby, hfilled⟩ := Settings.goesBy_of_load hload
  have hjobs : workers ⟨some "/", .text, [], none, none, false⟩ settings = 1 := by
    have hoptions := scanOptions_filled ⟨some "/", .text, [], none, none, false⟩ settings source
    rw [← hfilled] at hoptions
    exact (congrArg ScanOptions.jobs hoptions).symm
  obtain ⟨files, report, -, -, -, herr, -⟩ := warnings_are_failures hw hzero rfl hby hjobs
  exact ⟨settings, hw, hzero, hby, hjobs, by decide +kernel, report, herr rfl⟩

end Census.Command
