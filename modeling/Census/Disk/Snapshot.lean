import Census.Disk.Host
import Std.Data.HashMap
/-!
A file system as it was when it was looked at: the answers for a number of paths. Nothing is found at
any other path.
-/

namespace Census.Disk

structure Answers where
  names : Except OsError (List String)
  kind : Except OsError EntryKind
  target : Except OsError EntryKind
  bytes : Except OsError (List UInt8)

namespace Answers

def failed (e : OsError) : Answers := ⟨.error e, .error e, .error e, .error e⟩

end Answers

abbrev Snapshot := Std.HashMap String Answers

namespace Snapshot

def answers (s : Snapshot) (path : String) : Answers := s.getD path (.failed .notFound)

def list (s : Snapshot) (path : String) : Except OsError (List String) :=
  if pathLimit ≤ path.utf8ByteSize then .error .nameTooLong
  else entryNames <$> (s.answers path).names

theorem list_eq_ok {s : Snapshot} {path : String} {names : List String}
    (h : s.list path = .ok names) :
    path.utf8ByteSize < pathLimit ∧ ∃ found, names = entryNames found := by
  unfold list at h
  split at h
  · simp at h
  · cases found : (s.answers path).names with
    | error e => simp [found, Functor.map, Except.map] at h
    | ok ns =>
      simp only [found, Functor.map, Except.map, Except.ok.injEq] at h
      exact ⟨by omega, ns, h.symm⟩

def host (s : Snapshot) : Host where
  list := s.list
  kind path := (s.answers path).kind
  target path := (s.answers path).target
  read path := (s.answers path).bytes
  list_nodup path names h := by
    obtain ⟨-, found, rfl⟩ := list_eq_ok h
    exact entryNames_nodup found
  list_isEntryName path names h := by
    obtain ⟨-, found, rfl⟩ := list_eq_ok h
    exact isEntryName_of_mem_entryNames
  list_short path names h := (list_eq_ok h).1

end Snapshot

end Census.Disk
