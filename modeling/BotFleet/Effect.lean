import BotFleet.Client
import BotFleet.Tally

/-!
# What a step does besides changing its state

* `Level`, `Source`, `Effect`: counting, log lines and calls on clients;
* `Tally.apply`: the counting of an effect;
* `Journal`: effects with the instants at which they happen.
-/

namespace BotFleet

/-- How serious a log line is. -/
inductive Level where
  | error
  | warn
  | info
  | debug
deriving DecidableEq, Inhabited

/-- Which part of the program writes a log line. What a connection to a gateway and the program
around a run log is left out. -/
inductive Source where
  | session
  | routine
  | fleet
deriving DecidableEq, Inhabited

/-- What a step does besides changing its state. -/
inductive Effect where
  | count (c : Counter)
  | enter
  | leave
  | connect
  | call (c : Client.Call)
  | log (level : Level) (source : Source) (message : String)
deriving DecidableEq, Inhabited

/-- Count an effect. -/
def Tally.apply (t : Tally) : Effect → Tally
  | .count c => t.bump c
  | .enter => t.enter
  | .leave => t.leave
  | _ => t

/-- Count some effects. -/
def Tally.applyAll (t : Tally) (es : List Effect) : Tally := es.foldl Tally.apply t

/-- Effects with the instants at which they happened, the oldest first. -/
abbrev Journal : Type := Array (Nat × Effect)

/-- Note the effects of an instant. -/
def Journal.note (j : Journal) (now : Nat) (es : List Effect) : Journal :=
  es.foldl (fun j e => j.push (now, e)) j

end BotFleet
