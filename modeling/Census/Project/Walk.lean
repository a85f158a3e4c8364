import Census.Project.Logged
/-!
Finding the scripts below a directory. The entries of a directory are taken in the order of their
names, and what is in a directory comes where its name sorts. Links are never followed, and a path
that contains an ignored text is passed over with all that is below it.
-/

namespace Census

open Census.Disk (EntryKind Host join pathLimit)

def scriptEndings : List String := [".js", ".mjs", ".jsm"]

def isScriptName (name : String) : Bool :=
  scriptEndings.any fun ending => ending.toList.isSuffixOf name.toList

def occursIn (part : List Char) : List Char → Bool
  | [] => part.isEmpty
  | c :: cs => part.isPrefixOf (c :: cs) || occursIn part cs

def isIgnored (ignored : List String) (path : String) : Bool :=
  ignored.any fun part => occursIn part.toList path.toList

/-- A name among sorted ones, before the first that is not smaller. -/
def insertName (name : String) : List String → List String
  | [] => [name]
  | n :: ns => if n < name then n :: insertName name ns else name :: n :: ns

/-- Names in the order of their characters, which is that of their bytes. -/
def sortNames (names : List String) : List String := names.foldr insertName []

/-- The scripts that an entry of a directory is or has below it, given how a directory is walked. -/
def walkEntry (h : Host) (ignored : List String) (below : String → Logged (List String))
    (directory name : String) : Logged (List String) :=
  let path := join directory name
  if isIgnored ignored path then do
    .tell (.ignored path)
    return []
  else
    match h.kind path with
    | .error e => .fail (.directory path e)
    | .ok .link => do
      .tell (.linkSkipped path)
      return []
    | .ok .directory => below path
    | .ok .file => .pure (if isScriptName name then [path] else [])
    | .ok .pipe => .pure []

/-- The scripts below a directory, given a bound on its depth. -/
def walkDirectory (h : Host) (ignored : List String) (depth : Nat) (directory : String) :
    Logged (List String) :=
  match h.list directory with
  | .error e => .fail (.directory directory e)
  | .ok names =>
    match depth with
    | 0 => .fail (.directory directory .nameTooLong)
    | depth + 1 => do
      let found ← Logged.each (walkEntry h ignored (walkDirectory h ignored depth) directory)
        (sortNames names)
      return found.flatten

/-- The scripts below a root. Each level of directories adds to the length of the path, so that the
limit of paths bounds the depth: what lies deeper cannot be listed. -/
def walk (h : Host) (root : String) (ignored : List String) : Logged (List String) :=
  walkDirectory h ignored pathLimit root

end Census
