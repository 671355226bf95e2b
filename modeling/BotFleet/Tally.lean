import BotFleet.Json.Value

/-!
# Counting what a run does

* `Counter`, `Tally`: six counters that only grow, and the number of sessions that are active;
* `Tally.bump`, `Tally.enter`, `Tally.leave`: count an occurrence, a session that becomes active,
  one that is active no longer;
* `Tally.line`, `Tally.toJson`: the values on one line and as an object;
* `Register`: a tally with the names of those that hold it active.
-/

namespace BotFleet

/-- What is counted. -/
inductive Counter where
  | started
  | logins
  | failures
  | endedAfterLogin
  | moves
  | chats
deriving DecidableEq, Inhabited

/-- Counters of 64 bits, which wrap around, and the number of active sessions. -/
structure Tally where
  started : UInt64 := 0
  logins : UInt64 := 0
  failures : UInt64 := 0
  endedAfterLogin : UInt64 := 0
  moves : UInt64 := 0
  chats : UInt64 := 0
  active : UInt64 := 0
deriving DecidableEq, Inhabited

namespace Tally

def zero : Tally := {}

/-- The value of a counter. -/
def get (t : Tally) : Counter → UInt64
  | .started => t.started
  | .logins => t.logins
  | .failures => t.failures
  | .endedAfterLogin => t.endedAfterLogin
  | .moves => t.moves
  | .chats => t.chats

/-- Count one occurrence. -/
def bump (t : Tally) : Counter → Tally
  | .started => { t with started := t.started + 1 }
  | .logins => { t with logins := t.logins + 1 }
  | .failures => { t with failures := t.failures + 1 }
  | .endedAfterLogin => { t with endedAfterLogin := t.endedAfterLogin + 1 }
  | .moves => { t with moves := t.moves + 1 }
  | .chats => { t with chats := t.chats + 1 }

/-- A session becomes active. -/
def enter (t : Tally) : Tally := { t with active := t.active + 1 }

/-- A session is active no longer. -/
def leave (t : Tally) : Tally := { t with active := t.active - 1 }

/-- The values on one line. -/
def line (t : Tally) : String :=
  s!"active={t.active} started={t.started} logged_in={t.logins} failed={t.failures} " ++
    s!"ended_after_login={t.endedAfterLogin} moves={t.moves} chats={t.chats}"

def toJson (t : Tally) : Json :=
  .obj [
    ("sessionsStarted", .nat t.started.toNat),
    ("logins", .nat t.logins.toNat),
    ("loginFailures", .nat t.failures.toNat),
    ("terminatedAfterLogin", .nat t.endedAfterLogin.toNat),
    ("moves", .nat t.moves.toNat),
    ("chats", .nat t.chats.toNat),
    ("sessionsActive", .nat t.active.toNat)]

end Tally

/-- A tally together with the names of those that hold it active, each name once. -/
structure Register where
  tally : Tally := {}
  holders : List String := []
deriving DecidableEq, Inhabited

namespace Register

/-- A name lets go of the tally, if it holds it. -/
def release (r : Register) (name : String) : Register :=
  if name ∈ r.holders then ⟨r.tally.leave, r.holders.erase name⟩ else r

/-- A name takes hold of the tally; it takes the new hold before it gives up an older one. -/
def acquire (r : Register) (name : String) : Register :=
  let entered : Register := { r with tally := r.tally.enter }
  let released := entered.release name
  { released with holders := name :: released.holders }

/-- Everyone lets go. -/
def releaseAll (r : Register) : Register := r.holders.foldl release r

def bump (r : Register) (c : Counter) : Register := { r with tally := r.tally.bump c }

end Register

end BotFleet
