import BotFleet.CommandLine.Reader

/-!
# What is said about the command line

* `programName`, `programVersion`: what the program is called;
* `Setting.usage`, `helpLines`: the settings, one a line;
* `UsageError.message`: what is wrong with a command line.
-/

namespace BotFleet

def programName : String := "botswarm"

def programVersion : String := "0.1.0"

/-- How a setting is written. -/
def Setting.usage (s : Setting) : String :=
  match s.letter? with
  | some c => s!"  -{c}, {s.label}"
  | none => s!"      {s.label}"

/-- The settings, one a line. -/
def helpLines : List String :=
  [s!"Usage: {programName} [OPTIONS]", "", "Options:"] ++ Setting.all.map Setting.usage ++
    ["  -h, --help", "  -V, --version"]

/-- What is wrong with a command line; asking for help or the version is no error. -/
def UsageError.message? : UsageError → Option String
  | help | version => none
  | unknown word => some s!"error: unexpected argument '{word}' found"
  | missingValue s => some s!"error: a value is required for '{s.label}' but none was supplied"
  | badValue s => some s!"error: invalid value for '{s.label}'"
  | repeated s => some s!"error: the argument '{s.label}' cannot be used multiple times"
  | unneededValue label => some s!"error: unexpected value for '{label}' found"

end BotFleet
