import BotFleet.CommandLine.Usage
import BotFleet.Gateway.Connection
import BotFleet.Run.Basic

/-!
# The program

* `UsageError.transcript`, `PlanError.transcript`: what is printed instead of a run;
* `Plan.scripts`: how the clients of a run behave, for what the gateway does with each;
* `transcriptOf`: what the program does with some words, in an environment.
-/

namespace BotFleet

/-- What is printed when the command line starts no run. -/
def UsageError.transcript (e : UsageError) : Transcript :=
  match e, e.message? with
  | _, some message => { errors := [message], exit := .status 2 }
  | .version, none => { output := [s!"{programName} {programVersion}"], exit := .status 0 }
  | _, none => { output := helpLines, exit := .status 0 }

/-- What is printed when settings make no plan. -/
def PlanError.transcript (e : PlanError) : Transcript :=
  { errors := [s!"Error: {e.message}"], exit := .status 1 }

/-- What the client of one session meets: how far its attempt to connect gets, and what arrives
after that. -/
abbrev Visit : Type := Reach × List Inbound

/-- How the clients of a run behave. -/
def Plan.scripts (p : Plan) (visits : String → Visit) : String → Script := fun identity =>
  let (reach, items) := visits identity
  (Endpoint.ofPath p.gatewayPath).script ⟨identity, p.target⟩ reach items

/-- The plan of some words in an environment, or what is printed instead. -/
def planOf (words : List String) (env : Environment) : Except Transcript Plan :=
  match readSettings words env with
  | .error e => .error e.transcript
  | .ok settings =>
    match Plan.ofSettings settings with
    | .error e => .error e.transcript
    | .ok plan => .ok plan

/-- What the program does with some words, in an environment. -/
def transcriptOf (words : List String) (env : Environment) (id : RunId)
    (visits : String → Visit) (draw : Draw) (memory limit : Nat) : Transcript :=
  match planOf words env with
  | .error t => t
  | .ok plan => plan.run id (plan.scripts visits) draw memory limit

end BotFleet
