import Census.Disk.Host
import Census.Project.Log
/-!
Steps of a scan: each tells what it does and ends with a result or with the error that stops the scan.
What was told before an error is kept.
-/

namespace Census

open Census.Disk (OsError)

inductive ScanError where
  | directory (path : String) (cause : OsError)
  | file (path : String) (cause : OsError)
  deriving DecidableEq, Repr

namespace ScanError

def path : ScanError → String
  | directory p _ | file p _ => p

def cause : ScanError → OsError
  | directory _ c | file _ c => c

def message : ScanError → String
  | directory p _ => "failed to read directory: " ++ p
  | file p _ => "failed to read file: " ++ p

end ScanError

structure Logged (α : Type) where
  events : List Event
  result : Except ScanError α

namespace Logged

variable {α β : Type}

def pure (a : α) : Logged α := ⟨[], .ok a⟩

def fail (e : ScanError) : Logged α := ⟨[], .error e⟩

def tell (e : Event) : Logged Unit := ⟨[e], .ok ()⟩

def bind (x : Logged α) (f : α → Logged β) : Logged β :=
  match x.result with
  | .ok a =>
    let y := f a
    ⟨x.events ++ y.events, y.result⟩
  | .error e => ⟨x.events, .error e⟩

instance : Monad Logged where
  pure := pure
  bind := bind

/-- The results of a step for every element, one after another. -/
def each (f : α → Logged β) : List α → Logged (List β)
  | [] => pure []
  | a :: as => do
    let b ← f a
    let bs ← each f as
    return b :: bs

end Logged

end Census
