import BotFleet.CommandLine.Setting
import BotFleet.Routine.Pace
import BotFleet.Session.Settings
import BotFleet.Text.Blank

/-!
# The plan of a run

* `Plan`: what a run does, with nothing left to check;
* `PlanError`, `PlanError.message`: why settings make no plan;
* `Plan.ofSettings`: the plan of some settings.
-/

namespace BotFleet

/-- What a run does; times are in milliseconds, unless their name says otherwise. -/
structure Plan where
  target : Target
  bots : Nat
  gatewayPath : String
  stagger : Nat
  pace : Option Pace
  holdSecs : Option Nat
  statusSecs : Option Nat
  json : Bool
deriving DecidableEq, Inhabited

/-- Why settings make no plan. -/
inductive PlanError where
  | noBots
  | emptyHost
  | zeroInterval (s : Setting)
deriving DecidableEq, Inhabited

/-- The text of an error. -/
def PlanError.message : PlanError → String
  | noBots => "Bot count must be at least 1"
  | emptyHost => "Host must not be empty"
  | zeroInterval s => s!"{s.name} must be greater than zero"

namespace Plan

/-- A time that is not zero. -/
def positive (s : Setting) (ms : UInt64) : Except PlanError Nat :=
  if ms = 0 then .error (.zeroInterval s) else .ok ms.toNat

/-- The pace of the settings, unless bots only log in. -/
def paceOf (settings : Settings) : Except PlanError (Option Pace) := do
  let loginOnly : Bool := settings .noBehavior
  if loginOnly then return none
  return some {
    moveInterval := ← positive .moveIntervalMs (settings .moveIntervalMs)
    moveDuration := ← positive .moveDurationMs (settings .moveDurationMs)
    chatInterval := ← positive .chatIntervalMs (settings .chatIntervalMs) }

/-- The plan of some settings: there is at least one bot, the host is named, and no interval in use
is zero. -/
def ofSettings (settings : Settings) : Except PlanError Plan := do
  let bots : UInt64 := settings .bots
  let host : String := settings .host
  let stagger : UInt64 := settings .staggerMs
  let hold : Option UInt64 := settings .holdSecs
  let status : UInt64 := settings .statusIntervalSecs
  if bots = 0 then .error .noBots
  if Text.isBlank host then .error .emptyHost
  let pace ← paceOf settings
  return {
    target := ⟨host, settings .port, settings .gameVersion⟩
    bots := bots.toNat
    gatewayPath := settings .gatewayPath
    stagger := stagger.toNat
    pace
    holdSecs := hold.map UInt64.toNat
    statusSecs := if status = 0 then none else some status.toNat
    json := settings .json }

end Plan

end BotFleet
