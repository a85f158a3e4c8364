import Census.Command.Arguments
/-!
The texts of the command line: help, version, usage and what is told about a mistake.
-/

namespace Census.Command

def programName : String := "callmap"

def versionText : String := programName ++ " 0.1.0\n"

def generalUsage : String := "Usage: " ++ programName ++ " [OPTIONS] [PATH]"

/-- The usage line that shows what has been used so far. -/
def usageOf (used : List Argument) : String :=
  if used.isEmpty then generalUsage
  else
    let options := (used.filter (· != .path)).map fun a => " " ++ a.display
    let path := if used.contains .path then " <PATH>" else " [PATH]"
    "Usage: " ++ programName ++ String.join options ++ path

def helpText : String := String.intercalate "\n" [
  "List the functions, function expressions, and class methods of a JavaScript project",
  "",
  generalUsage,
  "",
  "Arguments:",
  "  [PATH]  Project root directory",
  "",
  "Options:",
  "      --format <FORMAT>     Output format [default: text] [possible values: text, json]",
  "      --ignore <SUBSTRING>  Skip any path containing this substring (repeatable, replaces the defaults)",
  "      --config <CONFIG>     Path to config file (default: auto-discover in the project root)",
  "      --jobs <JOBS>         Parser workers: 1 = sequential, 0 = one per core (overrides config file)",
  "  -q, --quiet               Only report errors on stderr",
  "  -h, --help                Print help",
  "  -V, --version             Print version",
  ""]

def quoted (s : String) : String := "'" ++ s ++ "'"

def possibleFormats : String :=
  "\n  [possible values: " ++ String.intercalate ", " (Format.all.map Format.word) ++ "]"

def tip (s : String) : String := "\n\n  tip: " ++ s

/-- How to pass a word that starts with a dash as a bare word. -/
def separateTip (word : String) : String :=
  tip ("to pass " ++ quoted word ++ " as a value, use " ++ quoted ("-- " ++ word))

def unexpectedArgument (word : String) : String :=
  "unexpected argument " ++ quoted word ++ " found"

/-- A mistake in words, without the lines that are common to all of them. -/
def UsageError.describe : UsageError → String
  | unknownWord word similar maySeparate used =>
    let shown := "--" ++ word
    let advice :=
      match similar with
      | some a => tip ("a similar argument exists: " ++ quoted ("--" ++ a.word))
      | none => if maySeparate then separateTip shown else ""
    unexpectedArgument shown ++ advice ++ "\n\n" ++ usageOf used
  | unknownLetter c =>
    let shown := "-" ++ c.toString
    unexpectedArgument shown ++ separateTip shown ++ "\n\n" ++ generalUsage
  | surplus word => unexpectedArgument word ++ "\n\n" ++ generalUsage
  | repeated a =>
    "the argument " ++ quoted a.display ++ " cannot be used multiple times\n\n" ++ generalUsage
  | missingValue a =>
    "a value is required for " ++ quoted a.display ++ " but none was supplied"
      ++ (if a == .format then possibleFormats else "")
  | unexpectedValue value a used =>
    "unexpected value " ++ quoted value ++ " for " ++ quoted a.display
      ++ " found; no more were expected\n\n" ++ usageOf used
  | badFormat value =>
    let similar :=
      match mostAlike? value (Format.all.map Format.word) with
      | some f => tip ("a similar value exists: " ++ quoted f)
      | none => ""
    "invalid value " ++ quoted value ++ " for " ++ quoted (Argument.display .format)
      ++ possibleFormats ++ similar
  | badCount value cause =>
    "invalid value " ++ quoted value ++ " for " ++ quoted (Argument.display .jobs) ++ ": "
      ++ cause.message

def UsageError.message (e : UsageError) : String :=
  "error: " ++ e.describe ++ "\n\nFor more information, try '--help'.\n"

end Census.Command
