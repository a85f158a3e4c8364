/-!
Settings of a project. Both fields may be absent; resolving fills in what is absent.
-/

namespace Census

structure Settings where
  /-- Parts of paths to skip. They replace the usual ones. -/
  ignore : Option (List String)
  /-- How many workers read files: one after another if 1, one for each processor if 0. -/
  jobs : Option UInt64
  deriving DecidableEq, Repr

namespace Settings

def empty : Settings := ⟨none, none⟩

def usualIgnored : List String := ["node_modules", "tests"]

def usualJobs : UInt64 := 1

/-- No part to skip is empty. The empty text is a part of every path. -/
def isValid (s : Settings) : Bool :=
  match s.ignore with
  | some parts => parts.all (!·.isEmpty)
  | none => true

end Settings

structure Resolved where
  ignore : List String
  jobs : UInt64
  /-- The file that the settings come from. -/
  source : Option String
  deriving DecidableEq, Repr

namespace Resolved

def usual : Resolved := ⟨Settings.usualIgnored, Settings.usualJobs, none⟩

end Resolved

inductive InvalidSettings where
  | emptyPart
  deriving DecidableEq, Repr

def InvalidSettings.message : InvalidSettings → String
  | emptyPart => "ignore entries must not be empty strings"

def Settings.validate (s : Settings) : Except InvalidSettings Unit :=
  if s.isValid then .ok () else .error .emptyPart

def Settings.resolve (s : Settings) : Except InvalidSettings Resolved := do
  s.validate
  return ⟨s.ignore.getD Settings.usualIgnored, s.jobs.getD Settings.usualJobs, none⟩

end Census
