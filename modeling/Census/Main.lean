import Census.Command.Run
import Census.Disk.Snapshot
/-!
The program. It looks at the files that a command line is about, and leaves the rest to the run.
-/

namespace Census

open Census.Disk (Answers EntryKind OsError Snapshot join)

def errorCode : IO.Error → UInt32
  | .noFileOrDirectory _ code _ | .permissionDenied _ code _ | .inappropriateType _ code _
  | .invalidArgument _ code _ | .noSuchThing _ code _ | .resourceExhausted _ code _
  | .otherError code _ => code
  | _ => 2

def osError (e : IO.Error) : OsError :=
  match errorCode e with
  | 1 | 13 => .denied
  | 20 => .notDirectory
  | 21 => .isDirectory
  | 36 => .nameTooLong
  | 40 => .tooManyLinks
  | _ => .notFound

def entryKind : IO.FS.FileType → EntryKind
  | .dir => .directory
  | .file => .file
  | .symlink => .link
  | .other => .pipe

def answer {α : Type} (act : IO α) : IO (Except OsError α) := do
  match ← act.toBaseIO with
  | .ok a => return .ok a
  | .error e => return .error (osError e)

/-- What is at a path. Bytes are read only where they may be needed. -/
def look (path : String) (readsBytes : Bool) : IO Answers := do
  let here ← IO.currentDir
  let place := here / path
  let kind ← answer (do return entryKind (← place.symlinkMetadata).type)
  let target ← answer (do return entryKind (← place.metadata).type)
  let names ← answer (do return (← place.readDir).toList.map (·.fileName))
  let bytes ←
    if readsBytes && target.toOption != some .pipe then
      answer (do return (← IO.FS.readBinFile place).toList)
    else pure (.error .notFound)
  return ⟨names, kind, target, bytes⟩

/-- Looks at a directory and all that is below it, without following links. -/
partial def lookBelow (s : Snapshot) (path : String) : IO Snapshot := do
  let found ← look path false
  let mut s := s.insert path found
  for name in found.names.toOption.getD [] do
    let inner := join path name
    let answers ← look inner (isScriptName name)
    if answers.kind.toOption == some .directory then s ← lookBelow s inner
    else s := s.insert inner answers
  return s

/-- All that a run with the given options may ask about. -/
def lookFor (o : Command.Options) : IO Snapshot := do
  let mut s : Snapshot := {}
  if let some root := o.path then
    s ← lookBelow s root
    for name in Settings.packageName :: Settings.fileNames do
      let path := join root name
      s := s.insert path (← look path true)
  if let some path := o.config then
    s := s.insert path (← look path true)
  return s

end Census

open Census in
def main (words : List String) : IO UInt32 := do
  let snapshot ←
    match Command.read words with
    | .ok (.run o) => lookFor o
    | _ => pure {}
  let outcome := Command.run snapshot.host .inTurn (← IO.getEnv "RUST_LOG") words
  (← IO.getStdout).putStr outcome.stdout
  (← IO.getStderr).putStr outcome.stderr
  return outcome.exitCode.toUInt32
