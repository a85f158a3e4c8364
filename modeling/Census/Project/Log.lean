import Census.Script.Parse
/-!
What a run tells about itself: events with a level, and the filter that says which of them are
written.
-/

namespace Census

inductive Level where
  | error
  | warn
  | info
  | debug
  | trace
  deriving DecidableEq, Repr

namespace Level

/-- How much is told: every level tells all that the ones before it tell. -/
def rank : Level → Nat
  | error => 1
  | warn => 2
  | info => 3
  | debug => 4
  | trace => 5

def tag : Level → String
  | error => "ERROR"
  | warn => " WARN"
  | info => " INFO"
  | debug => "DEBUG"
  | trace => "TRACE"

end Level

inductive Event where
  | settingsFrom (path : String)
  | ignored (path : String)
  | linkSkipped (path : String)
  | discovered (root : String) (files : Nat)
  | classified (file : String) (count : Nat)
  | parseFailed (error : Script.ParseError)
  | filesSkipped (count : Nat)
  deriving DecidableEq, Repr

namespace Event

def level : Event → Level
  | settingsFrom _ => .info
  | ignored _ | linkSkipped _ => .trace
  | discovered _ _ | classified _ _ => .debug
  | parseFailed _ | filesSkipped _ => .warn

/-- The part of the program that an event comes from, as filters name it. -/
def origin : Event → String
  | settingsFrom _ => "callmap"
  | ignored _ | linkSkipped _ => "callmap_core::walk"
  | discovered _ _ | filesSkipped _ => "callmap_core"
  | classified _ _ | parseFailed _ => "callmap_core::analysis"

/-- Signs that steer a terminal are written by number. -/
def safeChar (c : Char) : String :=
  if c == '\x1b' then "\\x1b"
  else if c == '\x07' then "\\x07"
  else if c == '\x08' then "\\x08"
  else if c == '\x0c' then "\\x0c"
  else if c == '\x7f' then "\\x7f"
  else if 0x80 ≤ c.toNat && c.toNat ≤ 0x9f then
    "\\u\x7b" ++ String.ofList (Nat.toDigits 16 c.toNat) ++ "\x7d"
  else c.toString

def safe (s : String) : String := String.join (s.toList.map safeChar)

def text : Event → String
  | settingsFrom path => safe ("Using config: " ++ path)
  | ignored path => "ignored path=" ++ path
  | linkSkipped path => "skipping symlink path=" ++ path
  | discovered root files =>
    "discovered source files root=" ++ root ++ " files=" ++ toString files
  | classified file count => "classified file=" ++ file ++ " count=" ++ toString count
  | parseFailed e =>
    safe ("error parsing file: " ++ e.message) ++ " file=" ++ e.file ++ " line="
      ++ toString e.line.toNat
  | filesSkipped count => "skipped " ++ toString count ++ " file(s) due to parse errors"

def line (e : Event) : String := e.level.tag ++ " " ++ e.text ++ "\n"

end Event

/-! ## Filters -/

/-- How much is told about the origins that start with a given text. -/
structure Directive where
  /-- All origins, if there is no text. -/
  origin : Option String
  /-- The rank of the last level that is told, or zero. -/
  rank : Nat
  deriving DecidableEq, Repr

structure Filter where
  directives : List Directive
  deriving DecidableEq, Repr

namespace Directive

def covers (d : Directive) (origin : String) : Bool :=
  match d.origin with
  | some start => start.toList.isPrefixOf origin.toList
  | none => true

/-- The more of an origin a directive names, the more it counts. -/
def weight (d : Directive) : Nat :=
  match d.origin with
  | some start => start.utf8ByteSize + 1
  | none => 0

/-- Of two directives the one that counts; of equal ones the later. -/
def stronger (a b : Directive) : Directive := if b.weight < a.weight then a else b

end Directive

namespace Filter

def upTo (level : Level) : Filter := ⟨[⟨none, level.rank⟩]⟩

def directive? (f : Filter) (origin : String) : Option Directive :=
  match f.directives.filter (·.covers origin) with
  | [] => none
  | d :: ds => some (ds.foldl Directive.stronger d)

def tells (f : Filter) (e : Event) : Bool :=
  match f.directive? e.origin with
  | some d => e.level.rank ≤ d.rank
  | none => false

/-- The number that digits stand for, with or without a plus sign before them. -/
def count? (word : List Char) : Option Nat :=
  let digits :=
    match word with
    | '+' :: ds => ds
    | ds => ds
  if digits.isEmpty || !digits.all Char.isDigit then none
  else some (digits.foldl (fun n c => n * 10 + (c.toNat - '0'.toNat)) 0)

/-- The rank that a word stands for: a number up to 5 or the name of a level. -/
def rank? (word : List Char) : Option Nat :=
  match count? word with
  | some n => if n ≤ 5 then some n else none
  | none =>
    match String.ofList (word.map Char.toLower) with
    | "" | "error" => some 1
    | "warn" => some 2
    | "info" => some 3
    | "debug" => some 4
    | "trace" => some 5
    | "off" => some 0
    | _ => none

/-- What one piece of a filter's text says. A piece about spans says nothing about single events. -/
inductive Piece where
  | directive (d : Directive)
  | aboutSpans

/-- The rank after an equals sign. Nothing stands for everything. -/
def rankAfterSign? (word : List Char) : Option Nat :=
  if word.isEmpty then some Level.trace.rank else rank? word

def spanPiece? (cs : List Char) : Option Piece :=
  match cs.dropWhile (· != ']') with
  | [']'] => some .aboutSpans
  | ']' :: '=' :: word => (rankAfterSign? word).map fun _ => .aboutSpans
  | _ => none

/-- Reads one piece: a level, an origin, or an origin and a level. Blanks around it are not part of
its shape, but they count as characters of it. -/
def piece? (cs : List Char) : Option Piece :=
  let shape := (cs.dropWhile Char.isWhitespace).reverse.dropWhile Char.isWhitespace |>.reverse
  match shape with
  | [] => none
  | c :: _ =>
    if c == '[' then spanPiece? shape
    else if !(c.isAlphanum || c == '-' || c == ':' || c == '_' || 0x80 ≤ c.toNat) then none
    else
      let n := (shape.takeWhile fun c => c != '=' && c != '[').length
      match shape.drop n with
      | [] =>
        match rank? cs with
        | some r => some (.directive ⟨none, r⟩)
        | none => some (.directive ⟨some (String.ofList cs), Level.trace.rank⟩)
      | '=' :: _ =>
        (rankAfterSign? (cs.drop (n + 1))).map fun r =>
          .directive ⟨some (String.ofList (cs.take n)), r⟩
      | rest => spanPiece? rest

def commaPieces : List Char → List (List Char)
  | [] => [[]]
  | c :: cs =>
    if c == ',' then [] :: commaPieces cs
    else
      match commaPieces cs with
      | [] => [[c]]
      | p :: ps => (c :: p) :: ps

/-- The filter that a text describes. One that says nothing tells errors only. -/
def ofText? (s : String) : Option Filter := do
  let pieces ← ((commaPieces s.toList).filter (!·.isEmpty)).mapM piece?
  if pieces.isEmpty then return upTo .error
  else
    return ⟨pieces.filterMap fun
      | .directive d => some d
      | .aboutSpans => none⟩

end Filter

end Census
