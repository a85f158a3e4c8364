import Census.Proofs.Project.Report
/-!
What a scan tells. A walk tells about what it passes over and nothing else; one worker tells about each
file in turn, and at the end the scan tells how many files were skipped, if any were.
-/

namespace Census

open Census.Disk (Host)

namespace Logged

variable {α β : Type} {P : Event → Prop} {x : Logged α}

/-- All that a step tells is of one sort. -/
def Tells (P : Event → Prop) (x : Logged α) : Prop := ∀ e ∈ x.events, P e

theorem tells_pure (a : α) : Tells P (Pure.pure a : Logged α) := nofun

theorem tells_fail (e : ScanError) : Tells P (fail e : Logged α) := nofun

theorem tells_tell {e : Event} (h : P e) : Tells P (tell e) := by
  intro e' he
  obtain rfl := List.mem_singleton.mp he
  exact h

theorem bind_events_of_ok {f : α → Logged β} {a : α} (h : x.result = .ok a) :
    (x >>= f).events = x.events ++ (f a).events := by
  change (Logged.bind x f).events = _
  rw [Logged.bind, h]

theorem bind_events_of_error {f : α → Logged β} {e : ScanError} (h : x.result = .error e) :
    (x >>= f).events = x.events := by
  change (Logged.bind x f).events = _
  rw [Logged.bind, h]

theorem Tells.bind {f : α → Logged β} (hx : Tells P x) (hf : ∀ a, Tells P (f a)) :
    Tells P (x >>= f) := by
  intro e he
  cases hr : x.result with
  | error err =>
    rw [bind_events_of_error hr] at he
    exact hx e he
  | ok a =>
    rw [bind_events_of_ok hr] at he
    rcases List.mem_append.mp he with he | he
    · exact hx e he
    · exact hf a e he

theorem tells_each {f : α → Logged β} (h : ∀ a, Tells P (f a)) (as : List α) :
    Tells P (each f as) := by
  induction as with
  | nil => exact tells_pure _
  | cons a as ih =>
    rw [each_cons]
    exact (h a).bind fun b => ih.bind fun bs => tells_pure _

/-- What is told about all elements is what is told about each of them, one after another. -/
theorem each_events {f : α → Logged β} {as : List α} {bs : List β}
    (h : (each f as).result = .ok bs) : (each f as).events = as.flatMap fun a => (f a).events := by
  induction as generalizing bs with
  | nil => rfl
  | cons a as ih =>
    rw [each_cons] at h ⊢
    obtain ⟨b, hb, h⟩ := bind_result_eq_ok.mp h
    obtain ⟨bs', hbs, -⟩ := bind_result_eq_ok.mp h
    rw [bind_events_of_ok hb, bind_events_of_ok hbs, ih hbs, List.flatMap_cons]
    exact congrArg _ (List.append_nil _)

end Logged

open Logged (Tells)

variable {h : Host} {s : Schedule} {root : String} {ignored files : List String}

/-! ## Files -/

/-- A file that can be read and is a module adds the records of the module to a report. -/
def Contributes (h : Host) (file : String) (records : List CallableRecord) : Prop :=
  ∃ bytes m, h.read file = .ok bytes ∧ Script.parse file (Text.decodeLossy bytes) = .ok m ∧
    records = callableRecords file (Text.decodeLossy bytes) m

/-- A file can be read and is no module. -/
def FailsToParse (h : Host) (file : String) (e : Script.ParseError) : Prop :=
  ∃ bytes, h.read file = .ok bytes ∧ Script.parse file (Text.decodeLossy bytes) = .error e

theorem contributes_iff {file : String} {records : List CallableRecord}
    (hs : (scanFile h file).result = .ok (scanOf h file)) :
    Contributes h file records ↔ scanOf h file = ⟨records, none⟩ := by
  obtain ⟨bytes, hread, hscan⟩ := scanFile_eq_ok.mp hs
  rw [hscan]
  constructor
  · rintro ⟨bytes', m, hread', hm, rfl⟩
    obtain rfl : bytes = bytes' := Except.ok.inj (hread.symm.trans hread')
    exact ofBytes_of_ok hm
  · intro heq
    cases hp : Script.parse file (Text.decodeLossy bytes) with
    | ok m =>
      rw [ofBytes_of_ok hp, FileScan.mk.injEq] at heq
      exact ⟨bytes, m, hread, hp, heq.1.symm⟩
    | error e =>
      rw [ofBytes_of_error hp, FileScan.mk.injEq] at heq
      exact absurd heq.2 (by simp)

theorem failsToParse_iff {file : String} {e : Script.ParseError}
    (hs : (scanFile h file).result = .ok (scanOf h file)) :
    FailsToParse h file e ↔ scanOf h file = ⟨[], some e⟩ := by
  obtain ⟨bytes, hread, hscan⟩ := scanFile_eq_ok.mp hs
  rw [hscan]
  constructor
  · rintro ⟨bytes', hread', he⟩
    obtain rfl : bytes = bytes' := Except.ok.inj (hread.symm.trans hread')
    exact ofBytes_of_error he
  · intro heq
    cases hp : Script.parse file (Text.decodeLossy bytes) with
    | ok m =>
      rw [ofBytes_of_ok hp, FileScan.mk.injEq] at heq
      exact absurd heq.2 (by simp)
    | error e' =>
      rw [ofBytes_of_error hp, FileScan.mk.injEq, Option.some.injEq] at heq
      exact ⟨bytes, hread, heq.2 ▸ hp⟩

/-- A file that can be read adds to a report or it cannot be parsed, but not both. -/
theorem contributes_iff_not_failsToParse {file : String} {bytes : List UInt8}
    (hread : h.read file = .ok bytes) :
    (∃ records, Contributes h file records) ↔ ¬ ∃ e, FailsToParse h file e := by
  simp only [Contributes, FailsToParse, hread, Except.ok.injEq, exists_and_left, exists_eq_left']
  cases Script.parse file (Text.decodeLossy bytes) with
  | ok m => simp
  | error e => simp

/-! ## Walks -/

/-- What a walk tells is for tracing only. -/
def IsTrace (e : Event) : Prop := e.level = .trace

theorem walkEntry_tells {below : String → Logged (List String)} (hb : ∀ path, Tells IsTrace (below path))
    (directory name : String) : Tells IsTrace (walkEntry h ignored below directory name) := by
  have hignored : ∀ path, IsTrace (.ignored path) := fun _ => rfl
  have hskipped : ∀ path, IsTrace (.linkSkipped path) := fun _ => rfl
  simp only [walkEntry]
  split
  · exact (Logged.tells_tell (hignored _)).bind fun _ => Logged.tells_pure _
  · split
    · exact Logged.tells_fail _
    · exact (Logged.tells_tell (hskipped _)).bind fun _ => Logged.tells_pure _
    · exact hb _
    · exact Logged.tells_pure _
    · exact Logged.tells_pure _

theorem walkDirectory_tells (depth : Nat) (directory : String) :
    Tells IsTrace (walkDirectory h ignored depth directory) := by
  induction depth generalizing directory with
  | zero =>
    unfold walkDirectory
    split <;> exact Logged.tells_fail _
  | succ depth ih =>
    unfold walkDirectory
    split
    · exact Logged.tells_fail _
    · exact (Logged.tells_each (fun name => walkEntry_tells ih directory name) _).bind fun _ =>
        Logged.tells_pure _

/-! ## Scans with one worker -/

theorem scanFile_events {file : String} {scan : FileScan} (hs : (scanFile h file).result = .ok scan) :
    (scanFile h file).events = [scan.event file] := by
  obtain ⟨bytes, hread, rfl⟩ := scanFile_eq_ok.mp hs
  simp only [scanFile, hread]
  rfl

theorem scanFiles_events {scans : List FileScan} (hs : (scanFiles h s 1 files).result = .ok scans) :
    (scanFiles h s 1 files).events = files.map fun f => (scanOf h f).event f := by
  have hevents : ∀ f ∈ files, (scanFile h f).events = [(scanOf h f).event f] := by
    intro f hf
    obtain ⟨scan, -, hscan⟩ := Logged.exists_ok_of_mem hs hf
    rw [scanFile_events hscan, scanFile_eq_scanOf hscan]
  change (Logged.each (scanFile h) files).events = _
  rw [Logged.each_events hs, List.flatMap_congr hevents, List.map_eq_flatMap]

/-- What a scan with one worker tells after its walk. -/
theorem scanProject_events {report : ScanReport}
    (hr : (scanProject h s root ⟨ignored, 1⟩).result = .ok report) :
    ∃ files, (walk h root ignored).result = .ok files ∧
      (scanProject h s root ⟨ignored, 1⟩).events =
        (walk h root ignored).events ++ .discovered root files.length ::
          ((files.map fun f => (scanOf h f).event f) ++ report.events) := by
  obtain ⟨files, hw, hrest⟩ := Logged.bind_result_eq_ok.mp hr
  obtain ⟨-, -, hrest⟩ := Logged.bind_result_eq_ok.mp hrest
  obtain ⟨scans, hs, hrest⟩ := Logged.bind_result_eq_ok.mp hrest
  obtain rfl : ScanReport.ofScans scans = report := Except.ok.inj hrest
  refine ⟨files, hw, ?_⟩
  unfold scanProject
  rw [Logged.bind_events_of_ok hw, Logged.bind_events_of_ok rfl, Logged.bind_events_of_ok hs,
    scanFiles_events hs, ← List.append_nil (ScanReport.ofScans scans).events]
  rfl

end Census
