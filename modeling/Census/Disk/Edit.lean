import Census.Disk.Volume
/-!
Changes to a file system. Directories on the way to a new entry are made as they are needed.
-/

namespace Census.Disk

inductive Edit where
  | write (path : String) (bytes : List UInt8)
  | makeDirectory (path : String)
  | link (path target : String)
  | pipe (path : String)
  | remove (path : String)
  | rename (path target : String)
  deriving Repr

def setEntry (name : String) (node : Option Node) (entries : List (String × Node)) :
    List (String × Node) :=
  let others := entries.filter fun e => e.1 != name
  match node with
  | some n => others ++ [(name, n)]
  | none => others

/-- Puts a node at a place, or takes away what is there. Nothing changes if no directory is there to
hold it. -/
def Node.set (node : Option Node) : List String → Node → Node
  | [], top => node.getD top
  | [name], .directory entries => .directory (setEntry name node entries)
  | name :: place, .directory entries =>
    match entries.lookup name with
    | some inner => .directory (setEntry name (some (Node.set node place inner)) entries)
    | none => .directory entries
  | _, top => top

/-- Makes the directories along steps from a place. Gives the place reached and the new top. -/
def makeAlong (top : Node) (place : List String) : List String →
    Except OsError (List String × Node)
  | [] => .ok (place, top)
  | step :: rest =>
    match resolve top true linkLimit place [step] with
    | .ok place => makeAlong top place rest
    | .error .notFound =>
      let new := place ++ [step]
      makeAlong (Node.set (some .empty) new top) new rest
    | .error e => .error e

/-- Puts a node at a path whose last step is a new name, in a directory made for it. -/
def place (top : Node) (path : String) (followLast : Bool) (node : Node) :
    Except OsError Node := do
  let all := steps path
  let (parent, top) ← makeAlong top [] all.dropLast
  let name := all.getLast?.getD "."
  match resolve top followLast linkLimit parent [name] with
  | .ok found => return Node.set (some node) found top
  | .error .notFound => return Node.set (some node) (parent ++ [name]) top
  | .error e => throw e

def Edit.apply (top : Node) : Edit → Except OsError Node
  | write path bytes => place top path true (.file bytes)
  | makeDirectory path => do
    let (_, top) ← makeAlong top [] (steps path)
    return top
  | link path target => place top path false (.link target)
  | pipe path => place top path false .pipe
  | remove path => do
    let found ← locate top false path
    return Node.set none found top
  | rename path target => do
    let found ← locate top false path
    match top.at? found with
    | some node => place (Node.set none found top) target false node
    | none => throw .notFound

end Census.Disk
