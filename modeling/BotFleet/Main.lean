import BotFleet.Run.Program

/-!
# The command line

* `main`: reads the words and the environment, and prints what the program does with them. There is
  no way out to a network.
-/

namespace BotFleet

/-- The variables that the program looks at. -/
def environment : IO Environment := do
  let values ← Setting.all.mapM fun s => do
    return (s.variableName, ← IO.getEnv s.variableName)
  return fun name => (values.lookup name).join

/-- A new identifier. -/
def newRunId : IO RunId := do
  let numbers ← (List.range 32).mapM fun _ => IO.rand 0 15
  return .ofRandom numbers

/-- How many bytes a program can address. -/
def addressable : Nat := 0x800000000000

/-- The status of a program that is aborted. -/
def abortStatus : UInt32 := 134

/-- More milliseconds than any run takes that ends at all. -/
def longestRun : Nat := Nat.pow 10 40

end BotFleet

open BotFleet

def main (words : List String) : IO UInt32 := do
  let t := transcriptOf words (← environment) (← newRunId) (fun _ => (.unreachable, [])) .steady
    addressable longestRun
  for line in t.output do IO.println line
  for line in t.errors do IO.eprintln line
  match t.exit with
  | .status n => return n
  | .aborted => return abortStatus
  | .running => return 0
