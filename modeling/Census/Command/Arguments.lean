import Census.Command.Similarity
/-!
The command line: what may stand on it, what a run is asked to do, and what can be wrong with it. An
option takes effect when the next option or the next bare word is met, so of two mistakes the one
that is met first is reported.
-/

namespace Census.Command

inductive Argument where
  | path
  | format
  | ignore
  | config
  | jobs
  | quiet
  | help
  | version
  deriving DecidableEq, Repr

namespace Argument

/-- The word after the two dashes. The path has none. -/
def word : Argument → String
  | path => "path"
  | format => "format"
  | ignore => "ignore"
  | config => "config"
  | jobs => "jobs"
  | quiet => "quiet"
  | help => "help"
  | version => "version"

def named : List Argument := [format, ignore, config, jobs, quiet, help, version]

def ofWord? (w : String) : Option Argument := named.find? (·.word == w)

def ofLetter? (c : Char) : Option Argument :=
  match c with
  | 'q' => some quiet
  | 'h' => some help
  | 'V' => some version
  | _ => none

def valueName? : Argument → Option String
  | format => some "FORMAT"
  | ignore => some "SUBSTRING"
  | config => some "CONFIG"
  | jobs => some "JOBS"
  | _ => none

def display : Argument → String
  | path => "[PATH]"
  | a =>
    match a.valueName? with
    | some v => "--" ++ a.word ++ " <" ++ v ++ ">"
    | none => "--" ++ a.word

end Argument

inductive Format where
  | text
  | json
  deriving DecidableEq, Repr

namespace Format

def word : Format → String
  | text => "text"
  | json => "json"

def all : List Format := [text, json]

def ofWord? (w : String) : Option Format := all.find? (·.word == w)

end Format

structure Options where
  path : Option String
  format : Format
  /-- They replace the ignored parts of the settings, if there are any. -/
  ignore : List String
  config : Option String
  jobs : Option UInt64
  quiet : Bool
  deriving DecidableEq, Repr

def Options.usual : Options := ⟨none, .text, [], none, none, false⟩

inductive CountError where
  | empty
  | badDigit
  | tooLarge
  deriving DecidableEq, Repr

def CountError.message : CountError → String
  | empty => "cannot parse integer from empty string"
  | badDigit => "invalid digit found in string"
  | tooLarge => "number too large to fit in target type"

inductive UsageError where
  /-- A word with dashes that names nothing, and the arguments that the usage line shows. -/
  | unknownWord (word : String) (similar : Option Argument) (maySeparate : Bool)
      (used : List Argument)
  | unknownLetter (c : Char)
  | surplus (word : String)
  | repeated (a : Argument)
  | missingValue (a : Argument)
  | unexpectedValue (value : String) (a : Argument) (used : List Argument)
  | badFormat (value : String)
  | badCount (value : String) (cause : CountError)
  deriving DecidableEq, Repr

/-! ## Values -/

def largestCount : Nat := UInt64.size - 1

def readDigits : Nat → List Char → Except CountError Nat
  | n, [] => .ok n
  | n, c :: cs =>
    if !c.isDigit then .error .badDigit
    else
      let m := n * 10 + (c.toNat - '0'.toNat)
      if m ≤ largestCount then readDigits m cs else .error .tooLarge

def readCount (cs : List Char) : Except CountError UInt64 :=
  match cs with
  | [] => .error .empty
  | ['+'] => .error .badDigit
  | '+' :: ds => UInt64.ofNat <$> readDigits 0 ds
  | ds => UInt64.ofNat <$> readDigits 0 ds

def Options.put (o : Options) (a : Argument) (value : String) : Except UsageError Options :=
  match a with
  | .path => if value.isEmpty then .error (.missingValue a) else .ok { o with path := some value }
  | .config => if value.isEmpty then .error (.missingValue a) else .ok { o with config := some value }
  | .ignore => .ok { o with ignore := o.ignore ++ [value] }
  | .quiet => .ok { o with quiet := true }
  | .format =>
    match Format.ofWord? value with
    | some f => .ok { o with format := f }
    | none => .error (if value.isEmpty then .missingValue a else .badFormat value)
  | .jobs =>
    match readCount value.toList with
    | .ok n => .ok { o with jobs := some n }
    | .error cause => .error (.badCount value cause)
  | .help | .version => .ok o

/-! ## Reading -/

/-- An argument that has been met and does not yet count. -/
structure Pending where
  argument : Argument
  value : Option String
  deriving DecidableEq, Repr

structure Reading where
  options : Options
  /-- The arguments that count, in the order in which they were met. -/
  seen : List Argument
  pending : Option Pending
  /-- The next word is the value of the pending argument, if it does not start with a dash. -/
  wantsValue : Bool
  pathMet : Bool
  /-- Everything that follows is a bare word. -/
  bareOnly : Bool
  deriving DecidableEq, Repr

def Reading.start : Reading := ⟨.usual, [], none, false, false, false⟩

inductive Request where
  | run (o : Options)
  | help
  | version
  deriving DecidableEq, Repr

namespace Reading

def withArgument (seen : List Argument) (a : Argument) : List Argument :=
  if seen.contains a then seen else seen ++ [a]

/-- Lets an argument count. Only parts to ignore may be given more than once. -/
def count (r : Reading) (a : Argument) (value : Option String) : Reading × Option UsageError :=
  match value with
  | none => (r, some (.missingValue a))
  | some v =>
    if r.seen.contains a && a != .ignore then
      ({ r with seen := r.seen.filter (· != a) }, some (.repeated a))
    else
      let r := { r with seen := withArgument r.seen a }
      match r.options.put a v with
      | .ok o => ({ r with options := o }, none)
      | .error e => (r, some e)

def settle (r : Reading) : Reading × Option UsageError :=
  match r.pending with
  | none => (r, none)
  | some p => count { r with pending := none, wantsValue := false } p.argument p.value

def settled (r : Reading) : Except UsageError Reading :=
  match r.settle with
  | (r, none) => .ok r
  | (_, some e) => .error e

/-- The next step: go on, or end with what is asked for. -/
abbrev Step := Except UsageError (Reading ⊕ Request)

/-- Meets an argument that takes no value. -/
def flag (r : Reading) (a : Argument) : Step := do
  let r ← r.settled
  match a with
  | .help => return .inr .help
  | .version => return .inr .version
  | a =>
    match r.count a (some "") with
    | (r, none) => return .inl r
    | (_, some e) => throw e

/-- A word after two dashes that names nothing. A word that is much like it is offered instead. -/
def unknownWord (r : Reading) (w : String) : UsageError :=
  let seen := r.settle.1.seen
  match (mostAlike? w (Argument.named.map Argument.word)).bind Argument.ofWord? with
  | some a => .unknownWord w (some a) false (withArgument seen a)
  | none => .unknownWord w none true seen

/-- Meets two dashes, a word and perhaps a value behind an equals sign. -/
def long (r : Reading) (w : String) (value : Option String) : Step :=
  match Argument.ofWord? w with
  | none => .error (r.unknownWord w)
  | some a =>
    match a.valueName?, value with
    | none, none => r.flag a
    | none, some v => .error (.unexpectedValue v a (withArgument r.seen a))
    | some _, none => do
      let r ← r.settled
      return .inl { r with pending := some ⟨a, none⟩, wantsValue := true }
    | some _, some v => do
      let r ← r.settled
      match r.count a (some v) with
      | (r, none) => return .inl r
      | (_, some e) => throw e

def letters (r : Reading) : List Char → Step
  | [] => .ok (.inl r)
  | c :: cs =>
    match Argument.ofLetter? c with
    | none => .error (.unknownLetter c)
    | some a => do
      match ← r.flag a with
      | .inl r => letters r cs
      | .inr request => return .inr request

def bare (r : Reading) (w : String) : Step :=
  if r.pathMet then .error (.surplus w)
  else do
    let r ← r.settled
    return .inl { r with pending := some ⟨.path, some w⟩, pathMet := true }

/-- Meets a word without dashes, or a single dash. -/
def plain (r : Reading) (w : String) : Step :=
  match r.wantsValue, r.pending with
  | true, some p =>
    .ok (.inl { r with pending := some { p with value := some w }, wantsValue := false })
  | _, _ => r.bare w

def step (r : Reading) (w : String) : Step :=
  if r.bareOnly then r.bare w
  else
    match w.toList with
    | ['-', '-'] => .ok (.inl { r with bareOnly := true })
    | '-' :: '-' :: cs =>
      let name := cs.takeWhile (· != '=')
      let value :=
        match cs.dropWhile (· != '=') with
        | _ :: v => some (String.ofList v)
        | [] => none
      r.long (String.ofList name) value
    | '-' :: c :: cs => r.letters (c :: cs)
    | _ => r.plain w

end Reading

def readFrom (r : Reading) : List String → Except UsageError Request
  | [] => do
    let r ← r.settled
    return .run r.options
  | w :: ws => do
    match ← r.step w with
    | .inl r => readFrom r ws
    | .inr request => return request

def read (words : List String) : Except UsageError Request := readFrom .start words

end Census.Command
