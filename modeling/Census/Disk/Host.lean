import Census.Disk.Path
/-!
What a program sees of a file system: the entries of directories, what an entry is, and the bytes of
files, all by path.
-/

namespace Census.Disk

inductive OsError where
  | notFound
  | denied
  | notDirectory
  | isDirectory
  | nameTooLong
  | tooManyLinks
  | nulInPath
  deriving DecidableEq, Repr

def OsError.message : OsError → String
  | notFound => "No such file or directory (os error 2)"
  | denied => "Permission denied (os error 13)"
  | notDirectory => "Not a directory (os error 20)"
  | isDirectory => "Is a directory (os error 21)"
  | nameTooLong => "File name too long (os error 36)"
  | tooManyLinks => "Too many levels of symbolic links (os error 40)"
  | nulInPath => "file name contained an unexpected NUL byte"

inductive EntryKind where
  | file
  | directory
  | link
  | pipe
  deriving DecidableEq, Repr

/-- A file system as it answers to paths. A directory lists every entry once, in any order, and too
long a path is never listed. -/
structure Host where
  list : String → Except OsError (List String)
  /-- What stands at a path itself. -/
  kind : String → Except OsError EntryKind
  /-- What stands where the links at the end of a path lead. -/
  target : String → Except OsError EntryKind
  read : String → Except OsError (List UInt8)
  list_nodup : ∀ path names, list path = .ok names → names.Nodup
  list_isEntryName : ∀ path names, list path = .ok names → ∀ n ∈ names, isEntryName n = true
  list_short : ∀ path names, list path = .ok names → path.utf8ByteSize < pathLimit

namespace Host

def exists? (h : Host) (path : String) : Bool := (h.target path).toOption.isSome

/-- A regular file stands at the path, or at the end of the links there. -/
def isFile (h : Host) (path : String) : Bool := (h.target path).toOption == some .file

end Host

end Census.Disk
