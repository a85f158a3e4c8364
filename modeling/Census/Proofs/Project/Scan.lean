import Census.Disk.Volume
import Census.Proofs.Project.Workers
import Census.Proofs.Text.ByteOrder
/-!
Results of scans. With any number of workers and any order of their moves a scan has the result of one
worker that takes the files in turn, except that another of the unreadable files may be reported.
-/

namespace Census

open Census.Disk (Host OsError)

variable {h : Host} {s : Schedule} {jobs : UInt64} {files : List String}

/-! ## One file -/

theorem scanFile_eq_ok {file : String} {scan : FileScan} :
    (scanFile h file).result = .ok scan ↔
      ∃ bytes, h.read file = .ok bytes ∧ scan = FileScan.ofBytes file bytes := by
  unfold scanFile
  cases hr : h.read file with
  | error e => simp
  | ok bytes => simp [eq_comm]

theorem scanFile_eq_error {file : String} {e : ScanError} :
    (scanFile h file).result = .error e ↔
      ∃ cause, h.read file = .error cause ∧ e = .file file cause := by
  unfold scanFile
  cases hr : h.read file with
  | error cause => simp [eq_comm]
  | ok bytes => simp

/-! ## All files -/

theorem ScansOf.unique {scans scans' : List FileScan} (hs : ScansOf h files scans)
    (hs' : ScansOf h files scans') : scans = scans' := by
  refine List.right_unique_forall₂' ?_ hs hs'
  intro f a b ha hb
  exact Except.ok.inj (ha.symm.trans hb)

theorem ScansOf.readable {scans : List FileScan} (hs : ScansOf h files scans) {f : String}
    (hf : f ∈ files) : ∃ bytes, h.read f = .ok bytes := by
  obtain ⟨scan, -, hscan⟩ := Logged.exists_ok_of_mem (Logged.each_eq_ok.mpr hs) hf
  obtain ⟨bytes, hbytes, -⟩ := scanFile_eq_ok.mp hscan
  exact ⟨bytes, hbytes⟩

theorem each_cases (h : Host) (files : List String) :
    (∃ scans, (Logged.each (scanFile h) files).result = .ok scans ∧ ScansOf h files scans) ∨
      ∃ f ∈ files, ∃ e, (scanFile h f).result = .error e ∧
        (Logged.each (scanFile h) files).result = .error e := by
  cases hr : (Logged.each (scanFile h) files).result with
  | ok scans => exact Or.inl ⟨scans, rfl, Logged.each_eq_ok.mp hr⟩
  | error e =>
    obtain ⟨front, f, back, rfl, -, hf⟩ := Logged.each_eq_error.mp hr
    exact Or.inr ⟨f, by simp, e, hf, rfl⟩

theorem scanTogether_cases (h : Host) (s : Schedule) (files : List String) :
    (∃ scans, (scanTogether h s files).result = .ok scans ∧ ScansOf h files scans) ∨
      ∃ f ∈ files, ∃ e, (scanFile h f).result = .error e ∧
        (scanTogether h s files).result = .error e :=
  Pool.outcome_of_settled (Pool.sound_run Pool.sound_opened _)
    (Pool.settled_allMoves Pool.sound_opened s) s.kept

/-- A scan gives the results of all files in their order, or the error of one of them. -/
theorem scanFiles_cases (h : Host) (s : Schedule) (jobs : UInt64) (files : List String) :
    (∃ scans, (scanFiles h s jobs files).result = .ok scans ∧ ScansOf h files scans) ∨
      ∃ f ∈ files, ∃ cause, h.read f = .error cause ∧
        (scanFiles h s jobs files).result = .error (.file f cause) := by
  have hcases : (∃ scans, (scanFiles h s jobs files).result = .ok scans ∧ ScansOf h files scans) ∨
      ∃ f ∈ files, ∃ e, (scanFile h f).result = .error e ∧
        (scanFiles h s jobs files).result = .error e := by
    unfold scanFiles
    split
    · exact each_cases h files
    · exact scanTogether_cases h s files
  rcases hcases with hok | ⟨f, hf, e, hfail, hresult⟩
  · exact Or.inl hok
  · obtain ⟨cause, hread, rfl⟩ := scanFile_eq_error.mp hfail
    exact Or.inr ⟨f, hf, cause, hread, hresult⟩

theorem scanFiles_eq_ok {scans : List FileScan} :
    (scanFiles h s jobs files).result = .ok scans ↔ ScansOf h files scans := by
  rcases scanFiles_cases h s jobs files with ⟨found, hfound, hall⟩ | ⟨f, hf, cause, hfail, hresult⟩
  · rw [hfound, Except.ok.injEq]
    constructor
    · rintro rfl
      exact hall
    · exact hall.unique
  · rw [hresult]
    constructor
    · intro hok
      exact absurd hok (by simp)
    · intro hall
      obtain ⟨bytes, hbytes⟩ := hall.readable hf
      exact absurd (hfail.symm.trans hbytes) (by simp)

theorem scanFiles_of_readable (hread : ∀ f ∈ files, ∃ bytes, h.read f = .ok bytes) :
    ∃ scans, ScansOf h files scans ∧ ∀ s jobs, (scanFiles h s jobs files).result = .ok scans := by
  rcases scanFiles_cases h .inTurn 1 files with ⟨scans, -, hall⟩ | ⟨f, hf, cause, hfail, -⟩
  · exact ⟨scans, hall, fun s jobs => scanFiles_eq_ok.mpr hall⟩
  · obtain ⟨bytes, hbytes⟩ := hread f hf
    exact absurd (hfail.symm.trans hbytes) (by simp)

theorem scanFiles_of_unreadable {f : String} {cause : OsError} (hf : f ∈ files)
    (hr : h.read f = .error cause) : ∃ g ∈ files, ∃ cause, h.read g = .error cause ∧
      (scanFiles h s jobs files).result = .error (.file g cause) := by
  rcases scanFiles_cases h s jobs files with ⟨scans, -, hall⟩ | herror
  · obtain ⟨bytes, hbytes⟩ := hall.readable hf
    exact absurd (hr.symm.trans hbytes) (by simp)
  · exact herror

/-- One worker stops at the first file that cannot be read. -/
theorem scanFiles_alone_eq_error {e : ScanError} (he : (scanFiles h s 1 files).result = .error e) :
    ∃ front f back cause, files = front ++ f :: back ∧
      (∀ g ∈ front, ∃ bytes, h.read g = .ok bytes) ∧ h.read f = .error cause ∧
      e = .file f cause := by
  obtain ⟨front, f, back, hfiles, hfront, hf⟩ := Logged.each_eq_error.mp he
  obtain ⟨cause, hfail, hcause⟩ := scanFile_eq_error.mp hf
  refine ⟨front, f, back, cause, hfiles, ?_, hfail, hcause⟩
  intro g hg
  obtain ⟨scan, hscan⟩ := hfront g hg
  obtain ⟨bytes, hbytes, -⟩ := scanFile_eq_ok.mp hscan
  exact ⟨bytes, hbytes⟩

/-! ## Projects -/

theorem scanProject_result {root : String} {ignored : List String}
    (hw : (walk h root ignored).result = .ok files) :
    (scanProject h s root ⟨ignored, jobs⟩).result =
      (scanFiles h s jobs files).result.map ScanReport.ofScans := by
  rw [scanProject, Logged.bind_result, hw]
  change (Logged.tell _ >>= fun _ => _).result = _
  rw [Logged.tell_bind_result, Logged.bind_result]
  cases (scanFiles h s jobs files).result <;> rfl

/-- Neither the number of workers nor the order in which they pick up and finish files matters as long
as every file can be read. Else no order gives a report, and the error is about a file that cannot be
read: about the first, if there is one worker. Whatever workers can do is what they do by a schedule. -/
theorem scanFiles_in_any_order (h : Host) (s : Schedule) (jobs : UInt64) (files : List String) :
    ((∀ f ∈ files, ∃ bytes, h.read f = .ok bytes) →
      (scanFiles h s jobs files).result = (scanFiles h .inTurn 1 files).result ∧
      (∃ scans, (scanFiles h s jobs files).result = .ok scans ∧
        List.Forall₂ (fun f scan => ∃ bytes, h.read f = .ok bytes ∧
          scan = FileScan.ofBytes f bytes) files scans) ∧
      ∀ root ignored, (walk h root ignored).result = .ok files →
        (scanProject h s root ⟨ignored, jobs⟩).result =
          (scanProject h .inTurn root ⟨ignored, 1⟩).result) ∧
    ((∃ f ∈ files, ∃ cause, h.read f = .error cause) →
      (∃ f ∈ files, ∃ cause, h.read f = .error cause ∧
        (scanFiles h s jobs files).result = .error (.file f cause)) ∧
      (jobs = 1 → ∃ front f back cause, files = front ++ f :: back ∧
        (∀ g ∈ front, ∃ bytes, h.read g = .ok bytes) ∧ h.read f = .error cause ∧
        (scanFiles h s jobs files).result = .error (.file f cause)) ∧
      ∀ root ignored, (walk h root ignored).result = .ok files →
        ∃ f ∈ files, ∃ cause, h.read f = .error cause ∧
          (scanProject h s root ⟨ignored, jobs⟩).result = .error (.file f cause)) ∧
    ∀ moves p kept, Pool.Execution h (.opened files) moves p → p.Settled →
      scanTogether h ⟨moves, kept⟩ files = ⟨p.events, p.outcome kept⟩ := by
  refine ⟨?_, ?_, fun moves p kept he hp => he.scanTogether_eq hp kept⟩
  · intro hread
    obtain ⟨scans, hall, hok⟩ := scanFiles_of_readable hread
    refine ⟨(hok s jobs).trans (hok .inTurn 1).symm, ⟨scans, hok s jobs, ?_⟩, ?_⟩
    · exact hall.imp fun f scan => scanFile_eq_ok.mp
    · intro root ignored hw
      rw [scanProject_result hw, scanProject_result hw, hok, hok]
  · rintro ⟨f, hf, cause, hr⟩
    obtain ⟨g, hg, gcause, hgfail, he⟩ := scanFiles_of_unreadable hf hr
    refine ⟨⟨g, hg, gcause, hgfail, he⟩, ?_, ?_⟩
    · rintro rfl
      obtain ⟨front, first, back, firstCause, hfiles, hfront, hfail, hcause⟩ :=
        scanFiles_alone_eq_error he
      exact ⟨front, first, back, firstCause, hfiles, hfront, hfail, hcause ▸ he⟩
    · intro root ignored hw
      refine ⟨g, hg, gcause, hgfail, ?_⟩
      rw [scanProject_result hw, he]
      rfl

/-- A script with a function in it, and a text that is no script. -/
def sampleProject : Disk.Node := .directory [
  ("f.js", .file (Text.bytes "function f() {}")),
  ("g.js", .file (Text.bytes "("))]

/-- Workers that take the last file first meet another missing file than one worker alone. -/
theorem scanFiles_in_any_order_sampleProject :
    (scanFiles sampleProject.host ⟨[.pickUp 1, .finish 1], 0⟩ 2 ["/f.js", "/g.js"]).result =
        (scanFiles sampleProject.host .inTurn 1 ["/f.js", "/g.js"]).result ∧
      (∃ f ∈ ["/a.js", "/f.js", "/z.js"], ∃ cause, sampleProject.host.read f = .error cause ∧
        (scanFiles sampleProject.host ⟨[.pickUp 2, .finish 2], 0⟩ 2
          ["/a.js", "/f.js", "/z.js"]).result = .error (.file f cause)) ∧
      (scanFiles sampleProject.host ⟨[.pickUp 2, .finish 2], 0⟩ 2
        ["/a.js", "/f.js", "/z.js"]).result = .error (.file "/z.js" .notFound) := by
  obtain ⟨hreadable, -, -⟩ := scanFiles_in_any_order sampleProject.host ⟨[.pickUp 1, .finish 1], 0⟩
    2 ["/f.js", "/g.js"]
  obtain ⟨-, hunreadable, -⟩ := scanFiles_in_any_order sampleProject.host
    ⟨[.pickUp 2, .finish 2], 0⟩ 2 ["/a.js", "/f.js", "/z.js"]
  refine ⟨(hreadable ?_).1, (hunreadable ?_).1, by decide +kernel⟩
  · have hf : sampleProject.host.read "/f.js" = .ok (Text.bytes "function f() {}") := by
      decide +kernel
    have hg : sampleProject.host.read "/g.js" = .ok (Text.bytes "(") := by decide +kernel
    intro f hm
    simp only [List.mem_cons, List.not_mem_nil, or_false] at hm
    rcases hm with rfl | rfl
    · exact ⟨_, hf⟩
    · exact ⟨_, hg⟩
  · exact ⟨"/z.js", by simp, .notFound, by decide +kernel⟩

end Census
