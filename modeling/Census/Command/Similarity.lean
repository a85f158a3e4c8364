import Census.Number.Binary64
/-!
How alike two words are: the share of their letters that match within a short distance, less the
matches out of order. The three parts of the measure are rounded one by one.
-/

namespace Census.Number.Binary64

def add (a b : Binary64) : Binary64 :=
  if a == infinity || b == infinity then infinity else
  let x := a.toRatio
  let y := b.toRatio
  ofRatio (x.1 * y.2 + y.1 * x.2) (x.2 * y.2)

def isLess (a b : Binary64) : Bool :=
  match a, b with
  | infinity, _ => false
  | finite _ _, infinity => true
  | a, b => decide (a.toRatio.1 * b.toRatio.2 < b.toRatio.1 * a.toRatio.2)

end Census.Number.Binary64

namespace Census.Command

open Census.Number (Binary64)

/-- The first free place within reach that holds a letter. -/
def matchFor (c : Char) (lo hi : Nat) (taken : List Nat) (b : List Char) : Option Nat :=
  (List.range b.length).find? fun j =>
    lo ≤ j && j < hi && !taken.contains j && b[j]? == some c

/-- Pairs every letter with the first free place within reach, in order. -/
def matchLetters (reach : Nat) (b : List Char) : Nat → List Nat → List Char → List (Char × Nat)
  | _, _, [] => []
  | i, taken, c :: cs =>
    match matchFor c (i - reach) (i + reach + 1) taken b with
    | some j => (c, j) :: matchLetters reach b (i + 1) (j :: taken) cs
    | none => matchLetters reach b (i + 1) taken cs

/-- How alike two words are, from 0 to 1. -/
def likeness (a b : String) : Binary64 :=
  let as := a.toList
  let bs := b.toList
  if as.isEmpty && bs.isEmpty then .ofNat 1
  else
    let pairs := matchLetters (max as.length bs.length / 2 - 1) bs 0 [] as
    let n := pairs.length
    if n == 0 then .zero
    else
      let places := (pairs.map Prod.snd).mergeSort (· ≤ ·)
      let misplaced := ((pairs.map Prod.fst).zip places).countP fun (c, j) => bs[j]? != some c
      let part (num den : Nat) : Binary64 := .ofRatio num den
      let sum := (part n as.length).add (part n bs.length) |>.add (part (n - misplaced / 2) n)
      sum.div (.ofNat 3)

def leastLikeness : Binary64 := .ofDecimal 7 (-1)

/-- The candidate most like a word, the later of two equals, if it is like enough. -/
def mostAlike? (word : String) (candidates : List String) : Option String :=
  let scored := candidates.map fun c => (likeness word c, c)
  let good := scored.filter fun s => leastLikeness.isLess s.1
  (good.foldl (fun (best : Option (Binary64 × String)) s =>
    match best with
    | some b => if s.1.isLess b.1 then some b else some s
    | none => some s) none).map Prod.snd

end Census.Command
