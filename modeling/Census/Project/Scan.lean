import Census.Callable.Discovery
import Census.Project.Walk
import Census.Settings.Basic
import Census.Text.Utf8
/-!
Scanning a project. Every script below the root is read on its own; one that is no module counts as
skipped and takes nothing from the others. The report has the order of the walk, whichever worker
finishes first.
-/

namespace Census

open Census.Disk (Host)

/-- What one file contributes. A file that cannot be parsed has no records. -/
structure FileScan where
  records : List CallableRecord
  failure : Option Script.ParseError
  deriving DecidableEq, Repr

/-- What a file with the given bytes contributes. -/
def FileScan.ofBytes (file : String) (bytes : List UInt8) : FileScan :=
  let text := Text.decodeLossy bytes
  match Script.parse file text with
  | .ok m => ⟨callableRecords file text m, none⟩
  | .error e => ⟨[], some e⟩

def FileScan.event (file : String) (s : FileScan) : Event :=
  match s.failure with
  | none => .classified file s.records.length
  | some e => .parseFailed e

def scanFile (h : Host) (file : String) : Logged FileScan :=
  match h.read file with
  | .error e => .fail (.file file e)
  | .ok bytes => do
    let s := FileScan.ofBytes file bytes
    .tell (s.event file)
    return s

/-! ## Workers -/

inductive Stage where
  | waiting
  | running
  | finished (result : Except ScanError FileScan)
  | passedOver

/-- The place of a file among the files that workers share. -/
structure Slot where
  file : String
  stage : Stage

namespace Slot

def failure? (s : Slot) : Option ScanError :=
  match s.stage with
  | .finished (.error e) => some e
  | _ => none

def scan? (s : Slot) : Option FileScan :=
  match s.stage with
  | .finished (.ok scan) => some scan
  | _ => none

end Slot

/-- What some worker does next with the file of a slot. It can be told to pass over a file as soon as
another has failed, but what runs is finished. -/
inductive Move where
  | pickUp (slot : Nat)
  | finish (slot : Nat)
  | passOver (slot : Nat)
  deriving DecidableEq, Repr

/-- The slots of all files, and what the workers have told so far. -/
structure Pool where
  slots : List Slot
  events : List Event

namespace Pool

def opened (files : List String) : Pool := ⟨files.map fun f => ⟨f, .waiting⟩, []⟩

def put (p : Pool) (i : Nat) (s : Slot) : Pool := { p with slots := p.slots.set i s }

def failures (p : Pool) : List ScanError := p.slots.filterMap Slot.failure?

/-- The pool after a move. One that cannot be made changes nothing. -/
def next (h : Host) (p : Pool) : Move → Pool
  | .pickUp i =>
    match p.slots[i]? with
    | some ⟨file, .waiting⟩ => p.put i ⟨file, .running⟩
    | _ => p
  | .finish i =>
    match p.slots[i]? with
    | some ⟨file, .running⟩ =>
      let scan := scanFile h file
      { p.put i ⟨file, .finished scan.result⟩ with events := p.events ++ scan.events }
    | _ => p
  | .passOver i =>
    match p.slots[i]? with
    | some ⟨file, .waiting⟩ => if p.failures.isEmpty then p else p.put i ⟨file, .passedOver⟩
    | _ => p

/-- What has become of the files, in the order of their slots: all results, or one of the failures. -/
def outcome (p : Pool) (kept : Nat) : Except ScanError (List FileScan) :=
  match p.failures with
  | [] => .ok (p.slots.filterMap Slot.scan?)
  | e :: es => .error ((e :: es).getD kept e)

end Pool

/-- The moves that workers make, one after another, and the number of the failure that is kept if there
are any. -/
structure Schedule where
  moves : List Move
  kept : Nat
  deriving DecidableEq, Repr

/-- Files are picked up and finished in the order in which they are given. -/
def Schedule.inTurn : Schedule := ⟨[], 0⟩

/-- What is left to do with a file, whatever has been done with it. -/
def settling (i : Nat) : List Move := [.passOver i, .pickUp i, .finish i]

/-- All moves over so many files. What a schedule leaves open is done in the order of the files. -/
def Schedule.allMoves (s : Schedule) (files : Nat) : List Move :=
  s.moves ++ (List.range files).flatMap settling

def scanTogether (h : Host) (s : Schedule) (files : List String) : Logged (List FileScan) :=
  let p := (s.allMoves files.length).foldl (Pool.next h) (.opened files)
  ⟨p.events, p.outcome s.kept⟩

/-- Files one after another with one worker, or together with any other number of them. -/
def scanFiles (h : Host) (s : Schedule) (jobs : UInt64) (files : List String) :
    Logged (List FileScan) :=
  if jobs == 1 then Logged.each (scanFile h) files else scanTogether h s files

/-! ## Projects -/

structure ScanOptions where
  ignored : List String
  jobs : UInt64
  deriving DecidableEq, Repr

namespace ScanOptions

def usual : ScanOptions := ⟨Settings.usualIgnored, Settings.usualJobs⟩

def ofResolved (r : Resolved) : ScanOptions := ⟨r.ignore, r.jobs⟩

end ScanOptions

/-- The records of all files and the files that could not be parsed, in the order of the walk. -/
structure ScanReport where
  records : List CallableRecord
  failures : List Script.ParseError
  deriving DecidableEq, Repr

def ScanReport.ofScans (scans : List FileScan) : ScanReport :=
  ⟨scans.flatMap (·.records), scans.filterMap (·.failure)⟩

def ScanReport.events (r : ScanReport) : List Event :=
  if r.failures.isEmpty then [] else [.filesSkipped r.failures.length]

def scanProject (h : Host) (s : Schedule) (root : String) (options : ScanOptions) :
    Logged ScanReport := do
  let files ← walk h root options.ignored
  .tell (.discovered root files.length)
  let scans ← scanFiles h s options.jobs files
  let report := ScanReport.ofScans scans
  ⟨report.events, .ok ()⟩
  return report

end Census
