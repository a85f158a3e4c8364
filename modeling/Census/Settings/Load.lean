import Census.Disk.Host
import Census.Settings.Decode
import Census.Text.Utf8
/-!
Where the settings of a project come from: a file that is named, or else the first file of a fixed list
that is there. Once a file is chosen, nothing else is looked at.
-/

namespace Census

open Census.Disk (Host OsError join)

inductive SettingsSource where
  /-- The whole file is about this program. -/
  | own (path : String)
  /-- One member of the file is about this program. -/
  | package (path : String)
  deriving DecidableEq, Repr

def SettingsSource.path : SettingsSource → String
  | own p | package p => p

inductive ReadFailure where
  | os (cause : OsError)
  | notUtf8
  deriving DecidableEq, Repr

def ReadFailure.message : ReadFailure → String
  | os cause => cause.message
  | notUtf8 => "stream did not contain valid UTF-8"

inductive SettingsError where
  | unreadable (source : SettingsSource) (cause : ReadFailure)
  | unparsable (source : SettingsSource) (cause : Json.Error)
  /-- The member of a package file that is about this program does not have the right shape. -/
  | misshapen (source : SettingsSource) (cause : Json.Error)
  | invalid (source : SettingsSource) (cause : InvalidSettings)
  | unresolved (cause : InvalidSettings)
  deriving DecidableEq, Repr

namespace SettingsError

def describeRead : SettingsSource → String
  | .own p => "failed to read config file: " ++ p
  | .package p => "failed to read " ++ p

def describeParse : SettingsSource → String
  | .own p => "failed to parse config file: " ++ p
  | .package p => "failed to parse " ++ p

def describeInvalid : SettingsSource → String
  | .own p => "invalid config in: " ++ p
  | .package p => "invalid callmap config in " ++ p

/-- The error and its causes, the outermost first. -/
def chain : SettingsError → List String
  | unreadable source cause => [describeRead source, cause.message]
  | unparsable source cause => [describeParse source, cause.message]
  | misshapen source cause => [describeInvalid source, cause.message]
  | invalid source cause => [describeInvalid source, cause.message]
  | unresolved cause => [cause.message]

end SettingsError

def readText (h : Host) (path : String) : Except ReadFailure (List Char) :=
  match h.read path with
  | .error e => .error (.os e)
  | .ok bytes =>
    match Text.decode? bytes with
    | some text => .ok text
    | none => .error .notUtf8

namespace Settings

def ofText (path : String) (text : List Char) : Except SettingsError Settings := do
  let settings ← (read text).mapError (.unparsable (.own path))
  settings.validate.mapError (.invalid (.own path))
  return settings

def ofFile (h : Host) (path : String) : Except SettingsError Settings := do
  let text ← (readText h path).mapError (.unreadable (.own path))
  ofText path text

def packageMember : String := "callmap"

/-- The settings in the text of a package file, if it has any. -/
def ofPackageText (path : String) (text : List Char) : Except SettingsError (Option Settings) := do
  let value ← (Json.Value.read text).mapError (.unparsable (.package path))
  match value.member? packageMember with
  | none => return none
  | some inner =>
    let settings ← (ofValue inner).mapError fun cause => .misshapen (.package path) ⟨cause, none⟩
    settings.validate.mapError (.invalid (.package path))
    return some settings

def ofPackage (h : Host) (path : String) : Except SettingsError (Option Settings) := do
  let text ← (readText h path).mapError (.unreadable (.package path))
  ofPackageText path text

/-- The files of this program that are looked for in a root, the first that is there counts. -/
def fileNames : List String := [".callmaprc.json", "callmap.config.json"]

def packageName : String := "package.json"

/-- The settings of a root and the file that they come from, if there is one. -/
def discover (h : Host) (root : String) : Except SettingsError (Option (Settings × String)) := do
  match (fileNames.map (join root)).find? h.isFile with
  | some path => return some (← ofFile h path, path)
  | none =>
    let path := join root packageName
    if h.isFile path then return (← ofPackage h path).map fun s => (s, path)
    else return none

/-- The settings of a scan, filled in. A file that is named is read, whatever is in the root. -/
def load (h : Host) (root : String) (named : Option String) : Except SettingsError Resolved := do
  let (settings, source) ←
    match named with
    | some path => pure (← ofFile h path, some path)
    | none =>
      match ← discover h root with
      | some (settings, path) => pure (settings, some path)
      | none => pure (empty, none)
  let resolved ← settings.resolve.mapError .unresolved
  return { resolved with source := source }

end Settings

end Census
