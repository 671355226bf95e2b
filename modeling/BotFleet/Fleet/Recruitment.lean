import BotFleet.Fleet.Basic
import BotFleet.Report.Record

/-!
# Recruiting a fleet

Bots are started one at a time: each one's login is waited for and recorded, and then there is a
pause before the next, but none after the last.

* `Order`: whom to recruit, and how;
* `ReserveError`, `Order.reserve`: room for the results is reserved in advance;
* `Recruitment`, `Recruitment.step`: how far the recruiting has come, and its next step;
* `Recruitment.timed`: the recruiting in time;
* `Order.recruit`: recruit a whole fleet, for some time at most.
-/

namespace BotFleet

/-- Whom to recruit, and how. -/
structure Order where
  target : Target
  count : Nat
  stagger : Nat
  pace : Option Pace
  /-- How the client of each bot behaves. -/
  scripts : String → Script

/-- Why no room can be reserved: it is more than can be reserved at all, which crashes the recruiter,
or more than the memory has, which ends the whole program. -/
inductive ReserveError where
  | overflow
  | exhausted (bytes : Nat)
deriving DecidableEq, Inhabited

/-- What is said about room that cannot be reserved. -/
def ReserveError.message : ReserveError → String
  | overflow => "capacity overflow"
  | exhausted bytes => s!"memory allocation of {bytes} bytes failed"

namespace Order

/-- The session of the bot with a given number. -/
def session (o : Order) (i : Nat) : Session :=
  let identity := identityOf i
  .start ⟨identity, o.target⟩ o.pace (o.scripts identity)

/-- The bytes that a record and a handle take, and the most that can be reserved at once. -/
def recordBytes : Nat := 56
def handleBytes : Nat := 96
def maxBytes : Nat := 0x7fffffffffffffff

/-- Reserve some bytes of a memory, and say how many are left. -/
def reserveBytes (memory bytes : Nat) : Except ReserveError Nat :=
  if maxBytes < bytes then .error .overflow
  else if memory < bytes then .error (.exhausted bytes)
  else .ok (memory - bytes)

/-- Reserve room for the records, and then for the handles. -/
def reserve (memory count : Nat) : Except ReserveError Unit := do
  let left ← reserveBytes memory (count * recordBytes)
  let _ ← reserveBytes left (count * handleBytes)
  return ()

end Order

/-- What the recruiter does next: start a bot, wait for its login, or pause before the next one. -/
inductive RecruitPhase where
  | starting (i : Nat)
  | awaiting (i : Nat)
  | pausing (i : Nat) (due : Nat)
  | done
deriving DecidableEq, Inhabited

/-- How far the recruiting has come. -/
structure Recruitment where
  order : Order
  fleet : Fleet := {}
  phase : RecruitPhase
  reporter : Reporter := {}
  completed : List LoginRecord := []

namespace Recruitment

/-- Begin with the first bot, if there is one. The reporter may hold records of earlier runs. -/
def start (o : Order) (reporter : Reporter := {}) : Recruitment :=
  { order := o, phase := if o.count = 0 then .done else .starting 1, reporter }

/-- The recruiting is over. -/
def isDone (r : Recruitment) : Bool := r.phase = .done

/-- Whether the recruiter can do something at this instant. -/
def ready (r : Recruitment) : Bool :=
  match r.phase with
  | .starting _ => true
  | .awaiting i => (r.fleet.pollLogin (i - 1)).2.isSome
  | .pausing _ due => due ≤ r.fleet.now
  | .done => false

/-- Record a login; unless it was the last one, pause before the next bot. -/
def recordLogin (r : Recruitment) (i : Nat) (v : Verdict) : Recruitment :=
  let record : LoginRecord := ⟨identityOf i, v⟩
  let r := { r with
    reporter := r.reporter.add record
    completed := r.completed ++ [record] }
  if i < r.order.count then
    let stagger := r.order.stagger
    { r with
      fleet := r.fleet.log .debug s!"Waiting {stagger}ms before creating the next bot"
      phase := .pausing i (Clock.wake r.fleet.now stagger) }
  else { r with phase := .done }

/-- The recruiter's next step; it does nothing while it has to wait. -/
def step (r : Recruitment) : Recruitment :=
  match r.phase with
  | .starting i =>
    let fleet := r.fleet.log .info s!"Creating {identityOf i} ({i}/{r.order.count})"
    { r with fleet := fleet.launch (r.order.session i), phase := .awaiting i }
  | .awaiting i =>
    match r.fleet.pollLogin (i - 1) with
    | (fleet, some v) => { r with fleet }.recordLogin i v
    | (_, none) => r
  | .pausing i due => if due ≤ r.fleet.now then { r with phase := .starting (i + 1) } else r
  | .done => r

/-- How many bots are still to be recruited. -/
def remaining (r : Recruitment) : Nat :=
  match r.phase with
  | .starting i | .awaiting i | .pausing i _ => r.order.count + 1 - i
  | .done => 0

/-- Let the sessions and the recruiter do what they can, with at most so many steps of the
recruiter. -/
def settleIn (draw : Draw) : Nat → Recruitment → Recruitment
  | 0, r => { r with fleet := r.fleet.settle draw }
  | fuel + 1, r =>
    let r := { r with fleet := r.fleet.settle draw }
    if r.ready then settleIn draw fuel r.step else r

/-- The recruiting in time; each bot takes three steps of the recruiter. -/
def timed (draw : Draw) : Timed Recruitment where
  settle r := r.settleIn draw (3 * r.remaining)
  wait? r :=
    match r.phase with
    | .pausing _ due => Fleet.sooner r.fleet.wait? (Fleet.waitFor r.fleet.now [due])
    | _ => r.fleet.wait?
  pass ms r := { r with fleet := r.fleet.pass ms }

end Recruitment

/-- Recruit a whole fleet with some memory, for some time at most, and say whether it was enough.
The recruiter takes its first step whatever the time. -/
def Order.recruit (o : Order) (draw : Draw) (memory limit : Nat) (reporter : Reporter := {}) :
    Except ReserveError (Recruitment × Bool) := do
  reserve memory o.count
  return (Recruitment.timed draw).await Recruitment.isDone limit
    (Recruitment.start o reporter).step

end BotFleet
