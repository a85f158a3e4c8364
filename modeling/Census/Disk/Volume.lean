import Census.Disk.Host
/-!
A file system as a tree. Paths are resolved step by step: a link in the middle of a path is always
followed, a link at its end only where that is asked for, and at most 40 links are followed.
-/

namespace Census.Disk

inductive Node where
  | file (bytes : List UInt8)
  | pipe
  | link (path : String)
  | directory (entries : List (String × Node))
  deriving Repr

namespace Node

def empty : Node := .directory []

def kind : Node → EntryKind
  | file _ => .file
  | pipe => .pipe
  | link _ => .link
  | directory _ => .directory

def entry? (name : String) : Node → Option Node
  | directory entries => entries.lookup name
  | _ => none

def names : Node → List String
  | directory entries => entryNames (entries.map Prod.fst)
  | _ => []

/-- The node at a place, given by the names that lead to it from the top. -/
def at? (n : Node) : List String → Option Node
  | [] => some n
  | name :: place => (n.entry? name).bind (·.at? place)

end Node

def linkLimit : Nat := 40

/-- The place that steps lead to from a directory, in a tree with a given top. What a link at the
place leads to is left to `follow`, with the steps that are still to be taken. -/
def resolveWith (top : Node) (followLast : Bool)
    (follow : List String → List String → Except OsError (List String)) (place : List String) :
    List String → Except OsError (List String)
  | [] => .ok place
  | step :: rest =>
    match top.at? place with
    | some (.directory entries) =>
      if step == "." then resolveWith top followLast follow place rest
      else if step == ".." then resolveWith top followLast follow place.dropLast rest
      else if nameLimit < step.utf8ByteSize then .error .nameTooLong
      else
        match entries.lookup step with
        | none => .error .notFound
        | some (.link path) =>
          if rest.isEmpty && !followLast then .ok (place ++ [step])
          else follow (if isAbsolute path then [] else place) (steps path ++ rest)
        | some _ => resolveWith top followLast follow (place ++ [step]) rest
    | _ => .error .notDirectory

/-- The place that steps lead to from a directory through at most so many links. -/
def resolve (top : Node) (followLast : Bool) :
    Nat → List String → List String → Except OsError (List String)
  | 0 => resolveWith top followLast fun _ _ => .error .tooManyLinks
  | links + 1 => resolveWith top followLast (resolve top followLast links)

/-- The place where the steps of a path begin: the top, or for a path that is not absolute the working
directory. -/
def startOf (here : List String) (path : String) : List String := if isAbsolute path then [] else here

/-- The place that a path leads to from a working directory. -/
def locateFrom (here : List String) (top : Node) (followLast : Bool) (path : String) :
    Except OsError (List String) :=
  if path.toList.contains '\x00' then .error .nulInPath
  else if path.isEmpty then .error .notFound
  else if pathLimit ≤ path.utf8ByteSize then .error .nameTooLong
  else resolve top followLast linkLimit (startOf here path) (steps path)

def findFrom (here : List String) (top : Node) (followLast : Bool) (path : String) :
    Except OsError Node := do
  let place ← locateFrom here top followLast path
  match top.at? place with
  | some node => return node
  | none => throw .notFound

def listFrom (here : List String) (top : Node) (path : String) : Except OsError (List String) :=
  match findFrom here top true path with
  | .ok (.directory entries) => .ok (Node.names (.directory entries))
  | .ok _ => .error .notDirectory
  | .error e => .error e

/-- The bytes of the file at a path. A pipe that nobody writes to has none. -/
def readFrom (here : List String) (top : Node) (path : String) : Except OsError (List UInt8) :=
  match findFrom here top true path with
  | .ok (.file bytes) => .ok bytes
  | .ok (.directory _) => .error .isDirectory
  | .ok _ => .ok []
  | .error e => .error e

theorem locateFrom_short {here : List String} {top : Node} {followLast : Bool} {path : String}
    {place : List String} (h : locateFrom here top followLast path = .ok place) :
    path.utf8ByteSize < pathLimit := by
  unfold locateFrom at h
  split at h
  · simp at h
  · split at h
    · simp at h
    · split at h
      · simp at h
      · omega

theorem listFrom_eq_ok {here : List String} {top : Node} {path : String} {names : List String}
    (h : listFrom here top path = .ok names) :
    ∃ entries, findFrom here top true path = .ok (.directory entries) ∧
      names = Node.names (.directory entries) := by
  unfold listFrom at h
  split at h
  · rename_i entries found
    exact ⟨entries, found, (Except.ok.inj h).symm⟩
  · simp at h
  · simp at h

theorem findFrom_short {here : List String} {top : Node} {followLast : Bool} {path : String}
    {node : Node} (h : findFrom here top followLast path = .ok node) :
    path.utf8ByteSize < pathLimit := by
  unfold findFrom at h
  cases found : locateFrom here top followLast path with
  | ok place => exact locateFrom_short found
  | error e => simp [found, bind, Except.bind] at h

/-- A tree as it answers to a program with a working directory. -/
def Node.hostFrom (here : List String) (top : Node) : Host where
  list := listFrom here top
  kind path := Node.kind <$> findFrom here top false path
  target path := Node.kind <$> findFrom here top true path
  read := readFrom here top
  list_nodup path names h := by
    obtain ⟨entries, -, rfl⟩ := listFrom_eq_ok h
    exact entryNames_nodup _
  list_isEntryName path names h := by
    obtain ⟨entries, -, rfl⟩ := listFrom_eq_ok h
    exact isEntryName_of_mem_entryNames
  list_short path names h := by
    obtain ⟨entries, found, -⟩ := listFrom_eq_ok h
    exact findFrom_short found

/-! ## At the top -/

def locate (top : Node) (followLast : Bool) (path : String) : Except OsError (List String) :=
  locateFrom [] top followLast path

abbrev Node.host (top : Node) : Host := top.hostFrom []

end Census.Disk
