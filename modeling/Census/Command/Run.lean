import Census.Command.Messages
import Census.Project.Scan
import Census.Report.Document
import Census.Report.Table
import Census.Settings.Load
/-!
A run of the program: the report on one side, what is told about the run on the other, and an exit
code that says whether there is a report.
-/

namespace Census.Command

open Census.Disk (Host)

structure Outcome where
  exitCode : UInt8
  stdout : String
  stderr : String
  deriving DecidableEq, Repr

inductive RunError where
  | noPath
  | noDirectory (path : String)
  | settings (e : SettingsError)
  | scan (root : String) (e : ScanError)
  deriving DecidableEq, Repr

/-- The error and its causes, the outermost first. -/
def RunError.chain : RunError → List String
  | noPath => [generalUsage]
  | noDirectory path => ["Directory \"" ++ path ++ "\" does not exist."]
  | settings e => "failed to load configuration" :: e.chain
  | scan root e => ["failed to scan " ++ root, e.message, e.cause.message]

/-- Starts every further line of a text with blanks. -/
def indent (blanks : String) (s : String) : String :=
  String.join (s.toList.map fun c => if c == '\n' then "\n" ++ blanks else c.toString)

def causeNumber (n : Nat) : String :=
  let digits := toString n
  String.ofList (List.replicate (5 - digits.length) ' ') ++ digits ++ ": "

/-- An error with its causes below it. Several causes are numbered. -/
def chainText : List String → String
  | [] => ""
  | [single] => single
  | [outer, cause] => outer ++ "\n\nCaused by:\n    " ++ indent "    " cause
  | outer :: causes =>
    outer ++ "\n\nCaused by:" ++
      String.join (causes.mapIdx fun i cause => "\n" ++ causeNumber i ++ indent "       " cause)

def RunError.text (e : RunError) : String := "Error: " ++ chainText e.chain ++ "\n"

/-- The options of a scan: what the command line says counts before the settings. -/
def scanOptions (o : Options) (r : Resolved) : ScanOptions where
  ignored := if o.ignore.isEmpty then r.ignore else o.ignore
  jobs := o.jobs.getD r.jobs

structure Told where
  events : List Event
  result : Except RunError ScanReport

def settingsEvents (r : Resolved) : List Event :=
  match r.source with
  | some path => [.settingsFrom path]
  | none => []

def perform (h : Host) (s : Schedule) (o : Options) : Told :=
  match o.path with
  | none => ⟨[], .error .noPath⟩
  | some path =>
    if !h.exists? path then ⟨[], .error (.noDirectory path)⟩
    else
      match Settings.load h path o.config with
      | .error e => ⟨[], .error (.settings e)⟩
      | .ok resolved =>
        let scan := scanProject h s path (scanOptions o resolved)
        ⟨settingsEvents resolved ++ scan.events, scan.result.mapError (.scan path)⟩

/-- The filter of a run. Without a usable text for it, warnings are told, or errors only. -/
def filterFor (quiet : Bool) (text : Option String) : Filter :=
  (text.bind Filter.ofText?).getD (.upTo (if quiet then .error else .warn))

def reportText (f : Format) (records : List CallableRecord) : String :=
  match f with
  | .text => "Function Definitions and Methods:\n" ++ Report.table records
  | .json => Report.document records ++ "\n"

def logText (f : Filter) (events : List Event) : String :=
  String.join ((events.filter f.tells).map Event.line)

def runWith (h : Host) (s : Schedule) (filterText : Option String) (o : Options) : Outcome :=
  let told := perform h s o
  let log := logText (filterFor o.quiet filterText) told.events
  match told.result with
  | .ok report => ⟨0, reportText o.format report.records, log⟩
  | .error e => ⟨1, "", log ++ e.text⟩

def run (h : Host) (s : Schedule) (filterText : Option String) (words : List String) : Outcome :=
  match read words with
  | .ok (.run o) => runWith h s filterText o
  | .ok .help => ⟨0, helpText, ""⟩
  | .ok .version => ⟨0, versionText, ""⟩
  | .error e => ⟨2, "", e.message⟩

end Census.Command
