import Census.Proofs.Project.Scan
import Census.Proofs.Project.Walk
import Mathlib.Data.List.Nodup
/-!
What a report says about each file. All that a file gives carries its path, and the paths of a walk
differ, so the report can be taken apart by files again.
-/

namespace Census

open Census.Disk (Host)

variable {h : Host} {s : Schedule} {root : String} {options : ScanOptions} {files : List String}

/-! ## What one file gives -/

/-- What a file gives if it can be read. -/
def scanOf (h : Host) (file : String) : FileScan :=
  .ofBytes file ((h.read file).toOption.getD [])

theorem scanFile_eq_scanOf {file : String} {scan : FileScan}
    (hs : (scanFile h file).result = .ok scan) : scan = scanOf h file := by
  obtain ⟨bytes, hread, rfl⟩ := scanFile_eq_ok.mp hs
  rw [scanOf, hread]
  rfl

theorem ofBytes_of_ok {file : String} {bytes : List UInt8} {m : Script.Module}
    (hm : Script.parse file (Text.decodeLossy bytes) = .ok m) :
    FileScan.ofBytes file bytes = ⟨callableRecords file (Text.decodeLossy bytes) m, none⟩ := by
  simp only [FileScan.ofBytes, hm]

theorem ofBytes_of_error {file : String} {bytes : List UInt8} {e : Script.ParseError}
    (he : Script.parse file (Text.decodeLossy bytes) = .error e) :
    FileScan.ofBytes file bytes = ⟨[], some e⟩ := by
  simp only [FileScan.ofBytes, he]

theorem parse_error_file {file : String} {text : List Char} {e : Script.ParseError}
    (he : Script.parse file text = .error e) : e.file = file := by
  unfold Script.parse at he
  split at he
  · exact absurd he (by simp)
  · rw [← Except.error.inj he]
    rfl

theorem file_of_mem_records {file : String} {bytes : List UInt8} {r : CallableRecord}
    (hr : r ∈ (FileScan.ofBytes file bytes).records) : r.file = file := by
  cases hp : Script.parse file (Text.decodeLossy bytes) with
  | ok m =>
    rw [ofBytes_of_ok hp] at hr
    obtain ⟨c, -, rfl⟩ := List.mem_map.mp hr
    rfl
  | error e =>
    rw [ofBytes_of_error hp] at hr
    exact absurd hr List.not_mem_nil

/-- A file has records or it has a failure of its own. -/
theorem ofBytes_cases (file : String) (bytes : List UInt8) :
    (FileScan.ofBytes file bytes).failure = none ∨
      ∃ e, (FileScan.ofBytes file bytes).failure = some e ∧ e.file = file ∧
        (FileScan.ofBytes file bytes).records = [] := by
  cases hp : Script.parse file (Text.decodeLossy bytes) with
  | ok m =>
    rw [ofBytes_of_ok hp]
    exact Or.inl rfl
  | error e =>
    rw [ofBytes_of_error hp]
    exact Or.inr ⟨e, rfl, parse_error_file hp, rfl⟩

theorem file_of_mem_scanOf_records {file : String} {r : CallableRecord}
    (hr : r ∈ (scanOf h file).records) : r.file = file := file_of_mem_records hr

theorem file_of_mem_scanOf_failure {file : String} {e : Script.ParseError}
    (he : e ∈ (scanOf h file).failure.toList) : e.file = file := by
  rcases ofBytes_cases file ((h.read file).toOption.getD []) with hnone | ⟨e', hsome, hfile, -⟩
  · rw [scanOf, hnone] at he
    exact absurd he (by simp)
  · rw [scanOf, hsome] at he
    obtain rfl : e = e' := by simpa using he
    exact hfile

/-! ## Lists put together from parts with keys -/

/-- Parts that carry their keys, for keys that differ: what has a key is the part of the key. -/
theorem filter_flatMap_of_key {α : Type} {key : α → String} {part : String → List α}
    (hkey : ∀ f, ∀ a ∈ part f, key a = f) (hn : files.Nodup) {f : String} (hf : f ∈ files) :
    ∃ before after, files.flatMap part = before ++ part f ++ after ∧
      (files.flatMap part).filter (key · == f) = part f ∧
      ∀ a ∈ before ++ after, key a ≠ f := by
  obtain ⟨front, back, rfl⟩ := List.append_of_mem hf
  have hnew : f ∉ front ++ back := (List.nodup_cons.mp (List.nodup_middle.mp hn)).1
  have hfront : f ∉ front := fun hm => hnew (List.mem_append_left _ hm)
  have hback : f ∉ back := fun hm => hnew (List.mem_append_right _ hm)
  have hother : ∀ fs : List String, f ∉ fs → ∀ a ∈ fs.flatMap part, key a ≠ f := by
    intro fs hfs a ha hka
    obtain ⟨g, hg, hag⟩ := List.mem_flatMap.mp ha
    obtain rfl : f = g := hka.symm.trans (hkey g a hag)
    exact hfs hg
  refine ⟨front.flatMap part, back.flatMap part, by simp, ?_, ?_⟩
  · rw [List.flatMap_append, List.flatMap_cons, List.filter_append, List.filter_append]
    have hdrop : ∀ fs : List String, f ∉ fs → (fs.flatMap part).filter (key · == f) = [] := by
      intro fs hfs
      rw [List.filter_eq_nil_iff]
      intro a ha
      simpa using hother fs hfs a ha
    have hkeep : (part f).filter (key · == f) = part f := by
      rw [List.filter_eq_self]
      intro a ha
      simpa using hkey f a ha
    rw [hdrop front hfront, hdrop back hback, hkeep]
    simp
  · intro a ha
    rcases List.mem_append.mp ha with ha | ha
    · exact hother front hfront a ha
    · exact hother back hback a ha

/-! ## Reports -/

theorem ScansOf.eq_map {scans : List FileScan} (hs : ScansOf h files scans) :
    scans = files.map (scanOf h) := by
  rw [← List.forall₂_eq_eq_eq, List.forall₂_map_right_iff]
  refine (hs.imp ?_).flip
  intro f scan
  exact scanFile_eq_scanOf

theorem ofScans_records (h : Host) (files : List String) :
    (ScanReport.ofScans (files.map (scanOf h))).records =
      files.flatMap fun f => (scanOf h f).records := by
  rw [ScanReport.ofScans, List.flatMap_map]

theorem ofScans_failures (h : Host) (files : List String) :
    (ScanReport.ofScans (files.map (scanOf h))).failures =
      files.flatMap fun f => (scanOf h f).failure.toList := by
  rw [ScanReport.ofScans, List.filterMap_map, List.filterMap_eq_flatMap_toList]
  rfl

theorem scanProject_eq_ok {report : ScanReport}
    (hr : (scanProject h s root options).result = .ok report) :
    ∃ files, (walk h root options.ignored).result = .ok files ∧
      (∀ f ∈ files, (scanFile h f).result = .ok (scanOf h f)) ∧
      report = ScanReport.ofScans (files.map (scanOf h)) := by
  obtain ⟨files, hw, -⟩ := Logged.bind_result_eq_ok.mp hr
  rw [show options = ⟨options.ignored, options.jobs⟩ from rfl, scanProject_result hw] at hr
  cases hscans : (scanFiles h s options.jobs files).result with
  | error e =>
    rw [hscans] at hr
    exact absurd hr (by simp [Except.map])
  | ok scans =>
    rw [hscans] at hr
    have hall := scanFiles_eq_ok.mp hscans
    refine ⟨files, hw, ?_, by rw [← hall.eq_map]; exact (Except.ok.inj hr).symm⟩
    intro f hf
    obtain ⟨bytes, hbytes⟩ := hall.readable hf
    rw [scanFile_eq_ok, scanOf, hbytes]
    exact ⟨bytes, rfl, rfl⟩

theorem scanProject_of_readable (hw : (walk h root options.ignored).result = .ok files)
    (hread : ∀ f ∈ files, ∃ bytes, h.read f = .ok bytes) :
    (scanProject h s root options).result = .ok (ScanReport.ofScans (files.map (scanOf h))) := by
  obtain ⟨scans, hall, hok⟩ := scanFiles_of_readable hread
  rw [show options = ⟨options.ignored, options.jobs⟩ from rfl, scanProject_result hw, hok,
    ← hall.eq_map]
  rfl

/-- A report is the walked files one after another, each with a block of records or one failure, and
nothing else. -/
theorem scanProject_partitions {report : ScanReport}
    (hr : (scanProject h s root options).result = .ok report) :
    ∃ (files : List String) (scan : String → FileScan),
      (walk h root options.ignored).result = .ok files ∧
      (∀ f ∈ files, (scanFile h f).result = .ok (scan f)) ∧
      report.records = files.flatMap (fun f => (scan f).records) ∧
      report.failures = files.filterMap (fun f => (scan f).failure) ∧
      (∀ f ∈ files, report.records.filter (·.file == f) = (scan f).records ∧
        ∃ before after, report.records = before ++ (scan f).records ++ after ∧
          ∀ r ∈ before ++ after, r.file ≠ f) ∧
      (∀ f ∈ files,
        report.failures.filter (·.file == f) = [] ∨
          (∃ e, report.failures.filter (·.file == f) = [e]) ∧
            report.records.filter (·.file == f) = []) ∧
      (∀ r ∈ report.records, r.file ∈ files) ∧ ∀ e ∈ report.failures, e.file ∈ files := by
  obtain ⟨files, hw, hscan, rfl⟩ := scanProject_eq_ok hr
  have hn : files.Nodup := walk_nodup hw
  have hrecords := ofScans_records h files
  have hfailures : (ScanReport.ofScans (files.map (scanOf h))).failures =
      files.filterMap fun f => (scanOf h f).failure := by
    rw [ofScans_failures, List.filterMap_eq_flatMap_toList]
  have hrecordFile : ∀ f, ∀ r ∈ (scanOf h f).records, r.file = f :=
    fun _ _ => file_of_mem_scanOf_records
  have hfailureFile : ∀ f, ∀ e ∈ (scanOf h f).failure.toList, e.file = f :=
    fun _ _ => file_of_mem_scanOf_failure
  refine ⟨files, scanOf h, hw, hscan, hrecords, hfailures, ?_, ?_, ?_, ?_⟩
  · intro f hf
    obtain ⟨before, after, hsplit, hfilter, hother⟩ := filter_flatMap_of_key hrecordFile hn hf
    rw [hrecords]
    exact ⟨hfilter, before, after, hsplit, hother⟩
  · intro f hf
    obtain ⟨-, -, -, hfilter, -⟩ := filter_flatMap_of_key hrecordFile hn hf
    obtain ⟨-, -, -, hfilter', -⟩ := filter_flatMap_of_key hfailureFile hn hf
    rw [hrecords, hfailures, hfilter, List.filterMap_eq_flatMap_toList, hfilter']
    rcases ofBytes_cases f ((h.read f).toOption.getD []) with hnone | ⟨e, hsome, -, hempty⟩
    · left
      rw [scanOf, hnone]
      rfl
    · right
      rw [scanOf, hsome, hempty]
      exact ⟨⟨e, rfl⟩, rfl⟩
  · intro r hm
    rw [hrecords] at hm
    obtain ⟨f, hf, hrf⟩ := List.mem_flatMap.mp hm
    exact hrecordFile f r hrf ▸ hf
  · intro e hm
    rw [hfailures, List.filterMap_eq_flatMap_toList] at hm
    obtain ⟨f, hf, hef⟩ := List.mem_flatMap.mp hm
    exact hfailureFile f e hef ▸ hf

def sampleReport : ScanReport :=
  ⟨[⟨"f", "/f.js", 1, .functionDeclaration⟩], [⟨"/g.js", 1, "Expression expected"⟩]⟩

theorem scanProject_partitions_sampleProject :
    (scanProject sampleProject.host ⟨[.pickUp 1, .pickUp 0, .finish 1], 0⟩ "/" ⟨[], 2⟩).result =
        .ok sampleReport ∧
      ∃ (files : List String) (scan : String → FileScan),
        (walk sampleProject.host "/" []).result = .ok files ∧
        (∀ f ∈ files, (scanFile sampleProject.host f).result = .ok (scan f)) ∧
        sampleReport.records = files.flatMap (fun f => (scan f).records) ∧
        sampleReport.failures = files.filterMap fun f => (scan f).failure := by
  have hr : (scanProject sampleProject.host ⟨[.pickUp 1, .pickUp 0, .finish 1], 0⟩ "/"
      ⟨[], 2⟩).result = .ok sampleReport := by
    decide +kernel
  obtain ⟨files, scan, hw, hscan, hrecords, hfailures, -⟩ := scanProject_partitions hr
  exact ⟨hr, files, scan, hw, hscan, hrecords, hfailures⟩

end Census
